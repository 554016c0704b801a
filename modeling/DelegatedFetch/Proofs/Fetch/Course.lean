import DelegatedFetch.Proofs.Fetch.Binding
import DelegatedFetch.Proofs.Fetch.Rules

/-!
# The course of exchanges

A call sends its requests in one of few orders. What an attempt may send
depends on the token that it binds, so the order is followed together with the
request tokens that are left to bind. Trading a request token uses up both that
among the arguments and that in the caller's state, whether it succeeds or not;
so the second attempt finds none to trade again.
-/

namespace DelegatedFetch

/-- What the requests of a call were for, in order. -/
def Progress.purposes (p : Progress) : List Purpose := p.sent.map (·.purpose)

namespace Call

open Step Purpose

/-- A condition on the request tokens that are left: of the arguments, and in the caller's state. -/
abbrev Left := Option String → Option String → Prop

namespace Left

/-- No matter what is left. -/
def any : Left := fun _ _ => True

/-- Nothing is left. -/
def none : Left := fun argument carried => argument = .none ∧ carried = .none

/-- A request token from another source was bound because the arguments name none. -/
def boundFrom (source : TokenSource) : Left :=
  fun argument _ => source = .arguments ∨ argument = .none

/-- If the accessor is bound to a request token, no other comes before it. -/
def bound (a : Accessor) : Left := fun argument carried =>
  ∀ token secret source, a.token = .request token secret source → boundFrom source argument carried

end Left

/-- The exchanges so far follow a course, in which some may be left out; and what is left of request
tokens. -/
structure Course (c : Call) (course : List Purpose) (left : Left) (p : Progress) : Prop where
  follows : p.purposes.Sublist course
  tokens : left (c.arguments p).requestToken p.state.requestToken

variable {c : Call} {xs ys : List Purpose} {left left' : Left} {a : Accessor} {p p' : Progress}

theorem Course.mono (h : Course c xs left p) (courses : xs.Sublist ys)
    (weaker : ∀ x y, left x y → left' x y) : Course c ys left' p :=
  ⟨h.follows.trans courses, weaker _ _ h.tokens⟩

theorem Course.afterSend (h : Course c xs left p) (purpose : Purpose) (signed : Request) :
    Course c (xs ++ [purpose]) left (c.afterSend purpose signed p) := by
  refine ⟨?_, h.tokens⟩
  have sent : (c.afterSend purpose signed p).purposes = p.purposes ++ [purpose] := List.map_append
  rw [sent]
  exact h.follows.append (List.Sublist.refl _)

theorem Course.kept {info : TokenInfo} {source : TokenSource} (h : Course c xs left p)
    (kept : Kept c info p source p') : Course c xs left p' := by
  cases kept with
  | inStore => exact ⟨h.follows, h.tokens⟩
  | inState => exact ⟨h.follows, h.tokens⟩

theorem Course.discarded (h : Course c xs left p) (discarded : Discarded c p p') :
    Course c xs left p' := by
  cases discarded with
  | stored => exact ⟨h.follows, h.tokens⟩
  | carried => exact ⟨h.follows, h.tokens⟩

/-- Forgetting the token that was bound leaves none, wherever it came from. -/
theorem Course.afterForgetting {source : TokenSource} (bound : a.source = source)
    (h : Course c xs (.boundFrom source) p) : Course c xs .none (afterForgetting a p) := by
  refine ⟨h.follows, requestToken_afterForgetting ?_, rfl⟩
  rcases h.tokens with first | unnamed
  · exact .inl (first ▸ bound)
  · exact .inr unnamed

theorem course_exchange (purpose : Purpose) (endpoint : Endpoint) (credentials : Credentials)
    (extra : Pairs) :
    Ensures (Course c xs left) (c.exchange purpose endpoint credentials extra)
      (fun _ => Course c (xs ++ [purpose]) left) fun _ => Course c (xs ++ [purpose]) left := by
  have longer : xs.Sublist (xs ++ [purpose]) := List.sublist_append_left _ _
  apply Ensures.bind (R := fun _ => Course c xs left) (ensures_sign
    (fun p _ _ entropy h _ _ => ⟨h.follows, h.tokens⟩)
    fun p _ entropy h _ => ⟨h.follows.trans longer, h.tokens⟩)
  intro signed
  exact ensures_send (fun p _ h _ => h.afterSend _ _) fun p _ h _ => h.afterSend _ _

theorem course_fetchResource (a : Accessor) :
    Ensures (Course c xs left) (c.fetchResource a)
      (fun _ => Course c (xs ++ [resource]) left) fun _ => Course c (xs ++ [resource]) left := by
  have longer : xs.Sublist (xs ++ [resource]) := List.sublist_append_left _ _
  apply ensures_get_bind
  intro q hq
  refine Ensures.bind (R := fun _ => Course c xs left)
    (ensures_cached? fun p cache hit hp _ => ?_) fun hit => ?_
  · exact hp ▸ ⟨hq.follows, hq.tokens⟩
  cases hit with
  | some hit => exact ensures_pure fun p h => h.mono longer fun _ _ h => h
  | none =>
    apply Ensures.bind (R := fun _ => Course c xs left) (ensures_sign
      (fun p _ _ entropy h _ _ => ⟨h.follows, h.tokens⟩)
      fun p _ entropy h _ => ⟨h.follows.trans longer, h.tokens⟩)
    intro signed
    apply Ensures.bind (R := fun _ => Course c (xs ++ [resource]) left)
      (ensures_send (fun p _ h _ => h.afterSend _ _) fun p _ h _ => h.afterSend _ _)
    intro response
    refine Ensures.bind (R := fun _ => Course c (xs ++ [resource]) left)
      (ensures_keep fun p cache h _ => ⟨h.follows, h.tokens⟩) fun _ => ensures_pure fun p h => h

theorem course_requestApproval (a : Accessor) :
    Ensures (Course c xs left) (c.requestApproval a)
      (fun _ => Course c (xs ++ [requestToken]) .any)
      fun _ => Course c (xs ++ [requestToken]) .any := by
  have longer (p : Progress) (h : Course c xs left p) : Course c (xs ++ [requestToken]) .any p :=
    h.mono (List.sublist_append_left _ _) fun _ _ _ => trivial
  have same (p : Progress) (h : Course c (xs ++ [requestToken]) left p) :
      Course c (xs ++ [requestToken]) .any p := h.mono (List.Sublist.refl _) fun _ _ _ => trivial
  rw [requestApproval]
  dsimp only
  split
  case isFalse => exact ensures_throw_bind longer
  apply ensures_ofExcept_bind (fun _ _ => longer)
  intro provider _
  apply ((course_exchange _ _ _ _).weaken (fun _ h => h) (fun _ _ h => h) fun _ => same).bind
  intro response
  apply ensures_ofExcept_bind (fun _ _ => same)
  intro reply _
  apply ensures_ofExcept_bind (fun _ _ => same)
  intro token _
  apply Ensures.bind (R := fun _ => Course c (xs ++ [requestToken]) .any)
    (ensures_modifyState fun p h => ⟨h.follows, trivial⟩)
  intro _
  exact ensures_modify fun p h => ⟨h.follows, trivial⟩

theorem course_persist (info : TokenInfo) :
    Ensures (Course c xs left) (c.persist info) (fun _ => Course c xs left)
      fun _ => Course c xs left :=
  ensures_persist (fun _ _ _ h kept => h.kept kept) fun _ _ h _ _ => h

/-- Trading a request token uses up all request tokens, and binds an access token. -/
theorem course_exchangeRequestToken {source : TokenSource} (bound : a.source = source) :
    Ensures (Course c xs (.boundFrom source)) (c.exchangeRequestToken a)
      (fun _ => Course c (xs ++ [accessToken]) .none)
      fun _ => Course c (xs ++ [accessToken]) (.boundFrom source) := by
  have longer (p : Progress) (h : Course c xs (.boundFrom source) p) :
      Course c (xs ++ [accessToken]) (.boundFrom source) p :=
    h.mono (List.sublist_append_left _ _) fun _ _ h => h
  rw [exchangeRequestToken]
  dsimp only
  split
  case isFalse => exact ensures_throw_bind longer
  apply ensures_ofExcept_bind (fun _ _ => longer)
  intro provider _
  apply (course_exchange _ _ _ _).bind
  intro response
  apply ensures_ofExcept_bind (fun _ _ _ h => h)
  intro reply _
  apply Ensures.bind (ensures_now (Q := fun _ => Course c (xs ++ [accessToken]) (.boundFrom source))
    fun _ h => h)
  intro now
  apply ensures_ofExcept_bind (fun _ _ _ h => h)
  intro info _
  apply Ensures.bind (ensures_forgetRequestToken (Q := fun _ => Course c (xs ++ [accessToken]) .none)
    fun p h => h.afterForgetting bound)
  intro _
  refine ((course_persist info).weaken (fun _ h => h) (fun _ _ h => h) fun _ p h => ?_).bind
    fun source => ensures_pure fun _ h => h
  exact h.mono (List.Sublist.refl _) fun _ _ none => .inr none.1

/-- An extended session binds an access token. -/
theorem course_extendSession (a : Accessor) (handle : String) :
    Ensures (Course c xs left) (c.extendSession a handle)
      (fun b p => b.hasAccessToken = true ∧ Course c (xs ++ [extension]) left p)
      fun _ => Course c (xs ++ [extension]) left := by
  have longer (p : Progress) (h : Course c xs left p) : Course c (xs ++ [extension]) left p :=
    h.mono (List.sublist_append_left _ _) fun _ _ h => h
  rw [extendSession]
  apply ensures_ofExcept_bind (fun _ _ => longer)
  intro provider _
  apply (course_exchange _ _ _ _).bind
  intro response
  apply ensures_ofExcept_bind (fun _ _ _ h => h)
  intro reply _
  apply Ensures.bind (ensures_now (Q := fun _ => Course c (xs ++ [extension]) left) fun _ h => h)
  intro now
  apply ensures_ofExcept_bind (fun _ _ _ h => h)
  intro info _
  exact (course_persist _).bind fun source => ensures_pure fun _ h => ⟨rfl, h⟩

theorem course_discardToken :
    Ensures (Course c xs left) c.discardToken (fun _ => Course c xs left)
      fun _ => Course c xs left :=
  ensures_discardToken fun _ _ h discarded => h.discarded discarded

theorem course_renew (a : Accessor) (handle : String) :
    Ensures (Course c xs left) (c.renew a handle)
      (fun renewed p => (∀ b, renewed = some b → b.hasAccessToken = true) ∧
        Course c (xs ++ [extension]) left p)
      fun _ => Course c (xs ++ [extension]) left := by
  rw [renew]
  apply Ensures.bind (R := fun result p =>
    (∀ b, result = .ok b → b.hasAccessToken = true) ∧ Course c (xs ++ [extension]) left p)
    (Ensures.observing ((course_extendSession a handle).weaken (fun _ h => h)
      (fun b p h => ⟨fun _ same => Except.ok.inj same ▸ h.1, h.2⟩)
      fun stop p h => ⟨fun _ other => (by cases other), h⟩))
  intro result
  split
  · exact ensures_pure fun p h => ⟨fun b same => h.1 b (Option.some.inj same ▸ rfl), h.2⟩
  · refine Ensures.bind (R := fun _ => Course c (xs ++ [extension]) left)
      (course_discardToken.of_imp fun _ h => h.2) fun _ => ensures_pure fun p h => ⟨?_, h⟩
    intro _ other
    cases other
  · exact ensures_throw fun _ h => h.2

theorem course_recover (a : Accessor) (expired : Bool) :
    Ensures (Course c xs left) (c.recover a expired)
      (fun _ => Course c (xs ++ [extension]) left) fun _ => Course c (xs ++ [extension]) left := by
  have longer (p : Progress) (h : Course c xs left p) : Course c (xs ++ [extension]) left p :=
    h.mono (List.sublist_append_left _ _) fun _ _ h => h
  rw [recover]
  split
  · exact ((course_renew a _).weaken (fun _ h => h) (fun _ _ h => h.2) fun _ _ h => h).discard
  · exact course_discardToken.weaken (fun _ h => h) (fun _ => longer) fun _ => longer

/-- What delivering the resource may send. -/
def delivery (recovered : Bool) : List Purpose :=
  if recovered then [resource] else [resource, extension]

theorem course_deliver (recovered : Bool) (a : Accessor) :
    Ensures (Course c xs left) (c.deliver recovered a)
      (fun _ => Course c (xs ++ delivery recovered) left)
      fun _ => Course c (xs ++ delivery recovered) left := by
  have longer (p : Progress) (h : Course c (xs ++ [resource]) left p) :
      Course c (xs ++ delivery recovered) left p := by
    refine h.mono ((List.Sublist.refl xs).append ?_) fun _ _ h => h
    cases recovered
    · exact List.sublist_append_left [resource] [extension]
    · exact List.Sublist.refl _
  rw [deliver]
  apply ((course_fetchResource a).weaken (fun _ h => h) (fun _ _ h => h) fun _ => longer).bind
  intro response
  split
  · exact ensures_pure longer
  · rename_i failure _
    cases recovered with
    | true =>
      simp only [Bool.not_true, Bool.and_false, Bool.false_eq_true, if_false]
      exact ensures_throw longer
    | false =>
      split
      · have all : xs ++ [resource] ++ [extension] = xs ++ delivery false :=
          List.append_assoc _ _ _
        exact all ▸ (course_recover a failure.expired).bind fun _ => ensures_pure fun _ h => h
      · exact ensures_throw longer

theorem course_complete (recovered : Bool) {source : TokenSource}
    (bound : a.source = source) :
    Ensures (Course c xs (.boundFrom source)) (c.complete recovered a)
      (fun _ => Course c (xs ++ accessToken :: delivery recovered) .none)
      fun _ => Course c (xs ++ accessToken :: delivery recovered) .none := by
  have whole : xs ++ [accessToken] ++ delivery recovered =
      xs ++ accessToken :: delivery recovered := List.append_assoc _ _ _
  have longer (p : Progress) (h : Course c (xs ++ [accessToken]) .none p) :
      Course c (xs ++ accessToken :: delivery recovered) .none p :=
    h.mono (whole ▸ List.sublist_append_left _ _) fun _ _ h => h
  rw [complete]
  apply Ensures.bind (R := fun result p => Ends (fun _ => Course c (xs ++ [accessToken]) .none)
    (fun _ => Course c (xs ++ [accessToken]) (.boundFrom source)) (result, p))
    (course_exchangeRequestToken bound).observing
  intro result
  cases result with
  | ok b => exact whole ▸ course_deliver recovered b
  | error stop =>
    apply Ensures.bind (ensures_forgetRequestToken (Q := fun _ => Course c (xs ++ [accessToken]) .none)
      fun p h => h.afterForgetting bound)
    intro _
    split
    · exact ensures_pure longer
    · exact ensures_throw longer

/-- The courses that calls take. -/
def courses : List (List Purpose) :=
  [[extension, resource, extension, accessToken, resource],
   [extension, resource, extension, requestToken],
   [accessToken, resource, extension, resource],
   [accessToken, resource, extension, requestToken]]

/-- The exchanges so far follow a course of calls. -/
def Follows (p : Progress) : Prop := ∃ course ∈ courses, p.purposes.Sublist course

/-- What the first attempt has left if it asks for another one: either no request token was traded,
or none is left. -/
def Retried (c : Call) (p : Progress) : Prop :=
  Course c [extension, resource, extension] .any p ∨
    Course c [accessToken, resource, extension] .none p

theorem Course.to_follows (h : Course c xs left p)
    (part : ∃ course ∈ courses, xs.Sublist course) : Follows p := by
  obtain ⟨course, mem, part⟩ := part
  exact ⟨course, mem, h.follows.trans part⟩

/-- A token that is renewed before it is used was an access token, and what comes of it is no
request token. -/
theorem course_refresh (a : Accessor) :
    Ensures (Course c xs left) (c.refresh false a)
      (fun b p => b = a ∧ Course c xs left p ∨
        (∀ t s source, b.token ≠ .request t s source) ∧ Course c (xs ++ [extension]) left p)
      fun _ => Course c (xs ++ [extension]) left := by
  rw [refresh]
  apply Ensures.bind (ensures_now (Q := fun _ => Course c xs left) fun _ h => h)
  intro now
  split
  · split
    · refine (course_renew a _).bind fun renewed => ensures_pure fun p h => .inr ⟨?_, h.2⟩
      intro t s source request
      cases renewed with
      | none => cases request
      | some b =>
        have access := h.1 b rfl
        rw [Option.getD_some] at request
        rw [Accessor.hasAccessToken_eq, request] at access
        cases access
    · exact ensures_pure fun p h => .inl ⟨rfl, h⟩
  · exact ensures_pure fun p h => .inl ⟨rfl, h⟩

/-- In a call that has recovered, tokens are used as they are. -/
theorem refresh_of_recovered {P : Progress → Prop} {E : Stop → Progress → Prop} (a : Accessor) :
    Ensures P (c.refresh true a) (fun b p => b = a ∧ P p) E := by
  rw [refresh]
  apply Ensures.bind (ensures_now (Q := fun _ => P) fun _ h => h)
  intro now
  simp only [Bool.not_true, Bool.false_and, Bool.false_eq_true, if_false]
  exact ensures_pure fun p h => ⟨rfl, h⟩

/-- The token that is bound is that of the arguments, if they name one. -/
theorem bound_of_build (kind : c.args.kind = .delegated)
    (built : Accessor.build p.store (c.arguments p) c.token c.services p.state = .ok a) :
    Left.bound a (c.arguments p).requestToken p.state.requestToken := by
  obtain ⟨provider, -, -, -, -, chosen⟩ :=
    Accessor.build_delegated ((c.arguments_kind p).trans kind) built
  have binds := chosen.binds
  intro token secret source request
  rw [request] at binds
  cases binds with
  | argument => exact .inl rfl
  | carriedRequest unnamed => exact .inr unnamed

/-- A request token is bound only where one is left. -/
theorem left_of_build {token secret : String} {source : TokenSource}
    (kind : c.args.kind = .delegated)
    (built : Accessor.build p.store (c.arguments p) c.token c.services p.state = .ok a)
    (request : a.token = .request token secret source) :
    ¬ Left.none (c.arguments p).requestToken p.state.requestToken := by
  obtain ⟨provider, -, -, -, -, chosen⟩ :=
    Accessor.build_delegated ((c.arguments_kind p).trans kind) built
  have binds := chosen.binds
  rintro ⟨argument, carried⟩
  rw [request] at binds
  cases binds with
  | argument named => rw [argument] at named; cases named
  | carriedRequest unnamed held => rw [carried] at held; cases held

theorem Course.first_to_follows (h : Course c [extension, resource, extension] left p) :
    Follows p :=
  h.to_follows (by decide)

/-- Delivering ends a first attempt, or asks for another one. -/
theorem course_deliver_first (part : xs.Sublist [extension]) (a : Accessor) :
    Ensures (Course c xs left) (c.deliver false a) (Attempted (fun _ => Follows) (Retried c))
      fun _ => Follows := by
  have longer (p : Progress) (h : Course c (xs ++ delivery false) left p) :
      Course c [extension, resource, extension] .any p :=
    h.mono (part.append (List.Sublist.refl _)) fun _ _ _ => trivial
  refine (course_deliver false a).weaken (fun _ h => h) (fun r p h => ?_)
    fun _ p h => (longer p h).first_to_follows
  cases r with
  | done => exact (longer p h).first_to_follows
  | retry => exact .inl (longer p h)

theorem course_delegatedFetch_first (a : Accessor) :
    Ensures (Course c [] (.bound a)) (c.delegatedFetch false a)
      (Attempted (fun _ => Follows) (Retried c)) fun _ => Follows := by
  have part : [extension].Sublist [extension, resource, extension] :=
    List.sublist_append_left _ [resource, extension]
  rw [delegatedFetch]
  apply ((course_refresh a).weaken (fun _ h => h) (fun _ _ h => h)
    fun _ p h => (h.mono part fun _ _ h => h).first_to_follows).bind
  intro b
  have either (p : Progress) (h : b = a ∧ Course c [] (.bound a) p ∨
      (∀ t s source, b.token ≠ .request t s source) ∧ Course c [extension] (.bound a) p) :
      Course c [extension] .any p := by
    rcases h with ⟨-, h⟩ | ⟨-, h⟩
    · exact h.mono (List.nil_sublist _) fun _ _ _ => trivial
    · exact h.mono (List.Sublist.refl _) fun _ _ _ => trivial
  split
  · split
    · have approved (p : Progress) (h : Course c ([extension] ++ [requestToken]) .any p) :
          Follows p := h.to_follows (by decide)
      exact ((course_requestApproval b).weaken either (fun _ p h => h) fun _ => approved).bind
        fun _ => ensures_pure approved
    · exact (course_deliver_first (List.Sublist.refl _) b).of_imp either
  · rename_i token secret source request
    have traded : Ensures (Course c [] (.boundFrom source)) (c.complete false b)
        (fun _ => Course c [accessToken, resource, extension] .none)
        fun _ => Course c [accessToken, resource, extension] .none :=
      course_complete false (Accessor.source_of_request request)
    refine traded.weaken (fun p h => ?_) (fun r p h => ?_) fun _ p h => h.to_follows (by decide)
    · rcases h with ⟨rfl, h⟩ | ⟨other, -⟩
      · exact h.mono (List.Sublist.refl _) fun _ _ bound => bound _ _ _ request
      · exact absurd request (other _ _ _)
    · cases r with
      | done => exact h.to_follows (by decide)
      | retry => exact .inr h
  · exact (course_deliver_first (List.Sublist.refl _) b).of_imp either

theorem course_attempt_first :
    Ensures (fun p => p.purposes = []) (c.attempt false)
      (Attempted (fun _ => Follows) (Retried c)) fun _ => Follows := by
  have none (p : Progress) (h : p.purposes = []) : Follows p :=
    ⟨_, List.mem_cons_self, h ▸ List.nil_sublist _⟩
  rw [attempt]
  apply ensures_get_bind
  intro q hq
  refine Ensures.bind (R := fun a p => p.purposes = [] ∧
    (c.args.kind = .delegated → Course c [] (.bound a) p))
    (ensures_ofExcept (fun a built p hp => ?_) fun r _ p hp => none p (hp ▸ hq)) fun a => ?_
  · subst hp
    exact ⟨hq, fun kind => ⟨hq ▸ List.Sublist.refl _, bound_of_build kind built⟩⟩
  split
  · have start (p : Progress) (h : p.purposes = []) : Course c [] .any p :=
      ⟨h ▸ List.Sublist.refl _, trivial⟩
    exact (course_deliver_first (List.nil_sublist _) a).of_imp fun p h => start p h.1
  · rename_i kind
    exact (course_delegatedFetch_first a).of_imp fun p h => h.2 kind

/-- A second attempt trades a request token only where one is left. -/
theorem course_delegatedFetch_second {trade : List Purpose} (a : Accessor)
    (left : ∀ t s source, a.token = .request t s source → trade = [accessToken]) :
    Ensures (Course c xs (.bound a)) (c.delegatedFetch true a)
      (fun _ p => Course c (xs ++ (trade ++ [resource])) .any p ∨
        Course c (xs ++ [requestToken]) .any p)
      fun _ p => Course c (xs ++ (trade ++ [resource])) .any p ∨
        Course c (xs ++ [requestToken]) .any p := by
  have delivered (p : Progress) (h : Course c (xs ++ delivery true) (.bound a) p) :
      Course c (xs ++ (trade ++ [resource])) .any p ∨ Course c (xs ++ [requestToken]) .any p :=
    .inl (h.mono ((List.Sublist.refl _).append (List.sublist_append_right _ _))
      fun _ _ _ => trivial)
  rw [delegatedFetch]
  apply (refresh_of_recovered a).bind
  intro b
  apply Ensures.of_fact
  intro same
  subst same
  split
  · split
    · exact ((course_requestApproval b).weaken (fun _ h => h) (fun _ _ h => h)
        fun _ _ => .inr).bind fun _ => ensures_pure fun _ => .inr
    · exact (course_deliver true b).weaken (fun _ h => h) (fun _ => delivered) fun _ => delivered
  · rename_i token secret source request
    have traded : Ensures (Course c xs (.boundFrom source)) (c.complete true b)
        (fun _ => Course c (xs ++ accessToken :: delivery true) .none)
        fun _ => Course c (xs ++ accessToken :: delivery true) .none :=
      course_complete true (Accessor.source_of_request request)
    have after (p : Progress) (h : Course c (xs ++ accessToken :: delivery true) .none p) :
        Course c (xs ++ (trade ++ [resource])) .any p ∨ Course c (xs ++ [requestToken]) .any p := by
      rw [left _ _ _ request]
      exact .inl (h.mono (List.Sublist.refl _) fun _ _ _ => trivial)
    refine traded.weaken (fun p h => ?_) (fun _ => after) fun _ => after
    exact h.mono (List.Sublist.refl _) fun _ _ bound => bound _ _ _ request
  · exact (course_deliver true b).weaken (fun _ h => h) (fun _ => delivered) fun _ => delivered

/-- A second attempt, where another trade is counted with or no request token is left. -/
theorem course_attempt_recovered (xs trade : List Purpose)
    (used : ∀ x y, left x y → trade = [accessToken] ∨ Left.none x y) :
    Ensures (Course c xs left) (c.attempt true)
      (fun _ p => Course c (xs ++ (trade ++ [resource])) .any p ∨
        Course c (xs ++ [requestToken]) .any p)
      fun _ p => Course c (xs ++ (trade ++ [resource])) .any p ∨
        Course c (xs ++ [requestToken]) .any p := by
  rw [attempt]
  apply ensures_get_bind
  intro q hq
  refine Ensures.bind (R := fun a p => p = q ∧
    Accessor.build q.store (c.arguments q) c.token c.services q.state = .ok a)
    (ensures_ofExcept (fun a built p hp => ⟨hp, built⟩) fun r _ p hp => ?_) fun a => ?_
  · subst hp
    exact .inr (hq.mono (List.sublist_append_left _ _) fun _ _ _ => trivial)
  split
  · have delivered (p : Progress) (h : Course c (xs ++ delivery true) left p) :
        Course c (xs ++ (trade ++ [resource])) .any p ∨ Course c (xs ++ [requestToken]) .any p :=
      .inl (h.mono ((List.Sublist.refl _).append (List.sublist_append_right _ _))
        fun _ _ _ => trivial)
    exact (course_deliver true a).weaken (fun p h => h.1 ▸ hq) (fun _ => delivered)
      fun _ => delivered
  · rename_i kind
    intro p hp
    obtain ⟨rfl, built⟩ := hp
    refine course_delegatedFetch_second a (fun t s source request => ?_) p
      ⟨hq.follows, bound_of_build kind built⟩
    exact (used _ _ hq.tokens).resolve_right (left_of_build kind built request)

theorem course_attempt_second :
    Ensures (Retried c) (c.attempt true) (Attempted (fun _ => Follows) fun _ => True)
      fun _ => Follows := by
  have ends {Q : Attempt → Progress → Prop} (follows : ∀ r p, Q r p → Follows p) (r : Attempt)
      (p : Progress) (h : Q r p) : Attempted (fun _ => Follows) (fun _ => True) r p := by
    cases r with
    | done => exact follows _ p h
    | retry => trivial
  have untraded (p : Progress)
      (h : Course c [extension, resource, extension, accessToken, resource] .any p ∨
        Course c [extension, resource, extension, requestToken] .any p) : Follows p :=
    h.elim (fun h => h.to_follows (by decide)) fun h => h.to_follows (by decide)
  have traded (p : Progress)
      (h : Course c [accessToken, resource, extension, resource] .any p ∨
        Course c [accessToken, resource, extension, requestToken] .any p) : Follows p :=
    h.elim (fun h => h.to_follows (by decide)) fun h => h.to_follows (by decide)
  intro p hp
  rcases hp with hp | hp
  · exact ((course_attempt_recovered _ [accessToken] fun _ _ _ => .inl rfl).weaken
      (fun _ h => h) (ends fun _ => untraded) fun _ => untraded) p hp
  · exact ((course_attempt_recovered _ [] fun _ _ => .inr).weaken
      (fun _ h => h) (ends fun _ => traded) fun _ => traded) p hp

/-- Every call follows one of the courses, whatever it finds and whatever others answer. -/
theorem follows_fetch (c : Call) (s : Surroundings) : Follows (c.fetch s).2 := by
  refine fetch_of_ensures (P := fun p => p.purposes = []) rfl (fun p entropy h => h) ?_
  refine ensures_run (fun r p h => ?_) fun _ =>
    ensures_loop course_attempt_first course_attempt_second
  exact ⟨_, List.mem_cons_self, h ▸ List.nil_sublist _⟩

end Call
end DelegatedFetch
