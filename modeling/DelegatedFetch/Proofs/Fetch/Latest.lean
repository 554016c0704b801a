import Mathlib.Data.List.Basic
import DelegatedFetch.Proofs.Fetch.Direct
import DelegatedFetch.Proofs.Fetch.Recovery
import DelegatedFetch.Proofs.Fetch.Sent

/-!
# The token that was issued last is the one that is used

Once a token was issued to a call, its requests for the resource carry that
token, until it is given up or another one is issued. This holds where new
tokens are kept in the store, and where the store had none to begin with.

A call whose caller's state keeps new tokens looks into the store first all the
same. If it finds a token there, a token that was issued to mend that one is
passed over. What a request token is traded for is used next wherever tokens
are kept, since no attempt begins in between.
-/

namespace DelegatedFetch.Call

variable {c : Call} {s : Surroundings} {a : Accessor} {q p : Progress} {g g' : Stage}
  {purpose : Purpose} {token : String}

/-- A request for the resource carries the token that was issued last, and no other; or it carries
none, since the token could not be kept or was not accepted. -/
theorem carries_latest (answers : OnlySuccesses s.cache) (onePlace : c.OnePlace s)
    {before after : List Exchange} {e : Exchange} {token : String}
    (sent : (c.fetch s).2.sent = before ++ e :: after) (resource : e.purpose = .resource)
    (issued : latestIssued before = some token) :
    (∀ t, c.Carries e t ↔ t = token) ∨ (∀ t, ¬ c.Carries e t) ∧ GivenUp c before token := by
  obtain ⟨used, carries, current⟩ := (c.renewed_fetch answers).used before e after sent resource
  rcases current onePlace token issued with rfl | ⟨rfl, given⟩
  · refine .inl fun t => ?_
    rw [carries, Option.some_inj, eq_comm]
  · refine .inr ⟨fun t carried => ?_, given⟩
    rw [carries] at carried
    cases carried

/-- The reply that a token has expired. -/
def expired : Reply := ⟨.ok { status := 401, body := Utf8.encode "oauth_problem=token_expired" }, 0⟩

/-- The reply that a fresh token is issued. -/
def refreshed : Reply :=
  ⟨.ok { status := 200, body := Utf8.encode "oauth_token=fresh&oauth_token_secret=hidden" }, 0⟩

/-- A gadget's call that is told of an expired token, gets a fresh one, and finds the resource. -/
def extendingCall (persistence : TokenPersistence) : Call :=
  let call := photoCall fun n => if n = 0 then expired else if n = 1 then refreshed else found
  { call with policy := { call.policy with persistence } }

/-- What that call finds: a stored token with a session. -/
def sessionStart : Surroundings :=
  { photoStart with
    store := { photoStore with
      tokens := Table.empty.insert ⟨"gadget", "photos", "ann", 0, ""⟩
        ⟨"stale", "hidden", some "handle", none⟩ } }

theorem sent_extendingCall (persistence : TokenPersistence) :
    ∃ x y e, ((extendingCall persistence).fetch sessionStart).2.sent = [x, y] ++ e :: [] ∧
      y.issued? = some "fresh" ∧ e.purpose = .resource := by
  have told : ((extendingCall persistence).fetch sessionStart).2.sent.map
      (fun e => (e.purpose, e.issued?)) =
      [(.resource, none), (.extension, some "fresh"), (.resource, none)] := by
    cases persistence <;> decide +kernel
  obtain ⟨x, y, e, sent, -, second, third⟩ := eq_triple_of_map told
  exact ⟨x, y, e, sent, congrArg Prod.snd second, congrArg Prod.fst third⟩

theorem latestIssued_of_last {x y : Exchange} {token : String} (issued : y.issued? = some token) :
    latestIssued [x, y] = some token := by
  have latest := latestIssued_snoc [x] y
  rwa [issued, Option.some_or] at latest

theorem not_givenUp_of_last {x y : Exchange} {token : String} (known : c.token.viewer ≠ none)
    (issued : y.issued? ≠ none) : ¬ GivenUp c [x, y] token := by
  rintro (⟨-, stranger⟩ | spurned)
  · exact known stranger
  · exact not_spurned_of_issued [x] issued spurned

/-- Where the store keeps new tokens, the second request carries the fresh one. -/
theorem carries_latest_extended : ∃ before e after,
    ((extendingCall .server).fetch sessionStart).2.sent = before ++ e :: after ∧
      e.purpose = .resource ∧ latestIssued before = some "fresh" ∧
        ∀ t, (extendingCall .server).Carries e t ↔ t = "fresh" := by
  obtain ⟨x, y, e, sent, issued, resource⟩ := sent_extendingCall .server
  have latest := latestIssued_of_last (x := x) issued
  refine ⟨[x, y], e, [], sent, resource, latest, ?_⟩
  rcases carries_latest onlySuccesses_none (.inl rfl) sent resource latest with fresh | ⟨-, given⟩
  · exact fresh
  · exact absurd given (not_givenUp_of_last nofun (by simp [issued]))

/-- What the second attempt signs with where the caller's state keeps new tokens: the stored
token. -/
def staleAccessor : Accessor :=
  (Accessor.consumerOnly ⟨"key", .hmac "secret", none, none⟩ .get .authHeader).setAccessToken
    ⟨"stale", "hidden", some "handle", none⟩ .store

theorem retried_extendingCall : ∃ q,
    (extendingCall .client).attempt false ((extendingCall .client).begun sessionStart) =
        (.ok .retry, q) ∧
      Accessor.build q.store ((extendingCall .client).arguments q) (extendingCall .client).token
          (extendingCall .client).services q.state = .ok staleAccessor ∧
      q.cache = none ∧ q.sent.length = 2 := by
  obtain ⟨left, same⟩ : ∃ left, left =
    (extendingCall .client).attempt false ((extendingCall .client).begun sessionStart) := ⟨_, rfl⟩
  have asks : (match left.1 with | .ok .retry => true | _ => false) = true := by
    rw [same]
    decide +kernel
  have built : Accessor.build left.2.store ((extendingCall .client).arguments left.2)
      (extendingCall .client).token (extendingCall .client).services left.2.state =
      .ok staleAccessor := by
    rw [same]
    decide +kernel
  have uncached : left.2.cache.isNone = true := by
    rw [same]
    decide +kernel
  have count : left.2.sent.length = 2 := by
    rw [same]
    decide +kernel
  rw [← same]
  rcases left with ⟨outcome, q⟩
  refine ⟨q, ?_, built, Option.isNone_iff_eq_none.1 uncached, count⟩
  simp only at asks
  split at asks
  · rfl
  · cases asks

/-- Where the caller's state keeps new tokens, the second request carries the stored token, although
a fresh one was issued and has not been given up. -/
theorem carries_stored_extended : ∃ before e after,
    ((extendingCall .client).fetch sessionStart).2.sent = before ++ e :: after ∧
      e.purpose = .resource ∧ latestIssued before = some "fresh" ∧
        (∀ t, (extendingCall .client).Carries e t ↔ t = "stale") ∧
          ¬ GivenUp (extendingCall .client) before "fresh" := by
  obtain ⟨x, y, e, sent, issued, resource⟩ := sent_extendingCall .client
  have latest := latestIssued_of_last (x := x) issued
  obtain ⟨q, retried, built, uncached, count⟩ := retried_extendingCall
  obtain ⟨signed, entropy, signs⟩ : ∃ signed entropy, (extendingCall .client).request.sign
      staleAccessor.credentials ((extendingCall .client).identityPairs staleAccessor)
        staleAccessor.placement q.clock q.entropy = (.ok signed, entropy) := ⟨_, _, rfl⟩
  have clean : (extendingCall .client).request.checkCaller = .ok () := by decide +kernel
  have identity : (extendingCall .client).checkIdentity = .ok () := by decide +kernel
  have answered : ((extendingCall .client).replies q.sent.length).outcome =
      .ok { status := 200 } := by
    rw [count]
    rfl
  have ended := sent_of_retried rfl clean identity retried built rfl uncached signs answered rfl
  obtain ⟨-, last⟩ := List.append_inj' (ended.symm.trans sent) rfl
  obtain rfl := (List.cons.inj last).1
  have carries : (extendingCall .client).Carries
      ⟨.resource, signed, some { status := 200 }⟩ "stale" := carries_of_signs rfl signs rfl
  exact ⟨[x, y], _, [], sent, rfl, latest, carries_iff_eq sent rfl carries,
    not_givenUp_of_last nofun (by simp [issued])⟩

/-- The last exchange has traded a request token for a token. -/
def TradedLast (sent : List Exchange) (token : String) : Prop :=
  ∃ x, sent.getLast? = some x ∧ x.purpose = .accessToken ∧ x.issued? = some token

theorem tradedLast_snoc {sent : List Exchange} {x : Exchange} :
    TradedLast (sent ++ [x]) token ↔ x.purpose = .accessToken ∧ x.issued? = some token := by
  simp [TradedLast]

/-- Right after a trade, a request for the resource carries what was got. -/
def UsesTraded (c : Call) (sent : List Exchange) : Prop :=
  ∀ before e after, sent = before ++ e :: after → e.purpose = .resource →
    ∀ token, TradedLast before token → c.Carries e token

/-- What was just traded for is in use, or the call has ended. -/
def TradedAt : Stage → Progress → Prop
  | .delivering _ a, p => ∀ token, TradedLast p.sent token → a.token.token? = some token
  | .ended _, _ => True
  | _, p => ∀ token, ¬ TradedLast p.sent token

theorem Notes.not_tradedLast (notes : Notes c purpose q p) (other : purpose ≠ .accessToken)
    (untraded : ∀ token, ¬ TradedLast q.sent token) (token : String) :
    ¬ TradedLast p.sent token := by
  cases notes with
  | nothing _ same => rw [same]; exact untraded token
  | exchange made _ sent =>
    rw [sent, tradedLast_snoc, made]
    exact fun traded => other traded.1

theorem UsesTraded.notes (h : UsesTraded c q.sent) (notes : Notes c purpose q p)
    (other : purpose ≠ .resource) : UsesTraded c p.sent := by
  cases notes with
  | nothing _ same => rwa [same]
  | exchange made _ sent =>
    rw [sent]
    exact forall_split_snoc h fun resource => absurd (made.symm.trans resource) other

theorem UsesTraded.exchanged {x : Exchange} (h : UsesTraded c q.sent)
    (held : ∀ token, TradedLast q.sent token → a.token.token? = some token)
    (exchanged : Exchanged c s a .resource q x p) : UsesTraded c p.sent := by
  rw [exchanged.sent]
  exact forall_split_snoc h fun _ token traded => (exchanged.carries_iff token).2 (held token traded)

theorem UsesTraded.fetched {outcome : Except Stop Response} (h : UsesTraded c q.sent)
    (held : ∀ token, TradedLast q.sent token → a.token.token? = some token)
    (fetched : Fetched c s a q outcome p) : UsesTraded c p.sent := by
  cases fetched with
  | cached still => rwa [still.sent]
  | answered exchanged => exact h.exchanged held exchanged
  | unanswered unanswered =>
    cases unanswered with
    | unsigned still => rwa [still.sent]
    | unreached exchanged => exact h.exchanged held exchanged

theorem TradedAt.mended (untraded : ∀ token, ¬ TradedLast p.sent token) (rejected : Bool)
    (a : Accessor) : TradedAt (.mended rejected a) p := by
  cases rejected with
  | true => exact untraded
  | false => exact untraded

theorem TradedAt.move (sound : SoundAt c s g q) (renewed : RenewedAt c s g q)
    (clean : c.request.checkCaller = .ok ()) (uses : UsesTraded c q.sent) (h : TradedAt g q)
    (move : c.Move g q g' p) : UsesTraded c p.sent ∧ TradedAt g' p := by
  cases move with
  | build | keep | expire => exact ⟨uses, h⟩
  | unbuilt => exact ⟨uses, trivial⟩
  | sign | use => exact ⟨uses, fun token traded => absurd traded (h token)⟩
  | extend ran =>
    have notes := (extended_of_run sound.2 sound.1 ran).notes
    exact ⟨uses.notes notes (by decide), .mended (notes.not_tradedLast (by decide) h) _ _⟩
  | unextended ran =>
    have notes := (extended_of_run sound.2 sound.1 ran).notes
    exact ⟨uses.notes notes (by decide), notes.not_tradedLast (by decide) h⟩
  | unreached ran =>
    have notes := (extended_of_run sound.2 sound.1 ran).notes
    exact ⟨uses.notes notes (by decide), trivial⟩
  | forget ran =>
    have notes : Notes c .extension q p := (discarded_of_run ran).notes
    exact ⟨uses.notes notes (by decide), .mended (notes.not_tradedLast (by decide) h) _ _⟩
  | approve kind unbound _ ran =>
    have notes := (approved_of_run sound kind unbound ran).notes
    exact ⟨uses.notes notes (by decide), trivial⟩
  | trade unsettled ran =>
    have traded := traded_of_run sound (sound.2.delegated unsettled) ran
    refine ⟨uses.notes traded.notes (by decide), fun token last => ?_⟩
    cases traded with
    | traded exchanged issued kept =>
      rw [kept.sent, Call.afterForgetting, exchanged.sent, tradedLast_snoc,
        issued_of_tokenInfo? issued] at last
      exact last.2
  | startOver unsettled ran failed =>
    have traded := traded_of_run sound (sound.2.delegated unsettled) ran
    refine ⟨uses.notes traded.notes.afterForgetting (by decide), fun token last => ?_⟩
    obtain ⟨x, exchanged, silent, -⟩ := traded.recovered failed
    rw [Call.afterForgetting, exchanged.sent, tradedLast_snoc, silent] at last
    cases last.2
  | untraded unsettled ran =>
    have traded := traded_of_run sound (sound.2.delegated unsettled) ran
    exact ⟨uses.notes traded.notes.afterForgetting (by decide), trivial⟩
  | deliver ran | undelivered ran | unfetched ran =>
    exact ⟨uses.fetched h (fetched_of_run sound.2 clean sound.1 ran), trivial⟩
  | outlive ran failed recoverable | reject ran failed recoverable =>
    have fetched := fetched_of_run sound.2 clean sound.1 ran
    obtain ⟨x, exchanged, -⟩ := fetched.recovered renewed.1.answers failed recoverable
    refine ⟨uses.fetched h fetched, fun token last => ?_⟩
    rw [exchanged.sent, tradedLast_snoc, exchanged.purpose] at last
    cases last.1

theorem Reaches.traded (answers : OnlySuccesses s.cache) (h : Reaches c s g p) :
    UsesTraded c p.sent ∧ TradedAt g p := by
  have idle : UsesTraded c [] := fun before _ _ split => by simp at split
  induction h with
  | unchecked => exact ⟨idle, trivial⟩
  | start => exact ⟨idle, fun _ ⟨_, last, _⟩ => nomatch last⟩
  | move before move ih =>
    exact ih.2.move before.sound (before.renewed answers) (before.clean move) ih.1 move

/-- What a request token was traded for is what the next request carries, if that is one for the
resource, and no other token. -/
theorem carries_traded (answers : OnlySuccesses s.cache) {before after : List Exchange} {e : Exchange}
    (sent : (c.fetch s).2.sent = before ++ e :: after) (resource : e.purpose = .resource)
    (traded : TradedLast before token) (t : String) : c.Carries e t ↔ t = token := by
  have uses : UsesTraded c (c.fetch s).2.sent :=
    fetch_of_reaches (I := fun p => UsesTraded c p.sent) (fun _ _ h => h)
      fun _ _ reached => (reached.traded answers).1
  exact carries_iff_eq sent resource (uses before e after sent resource token traded) t

end DelegatedFetch.Call
