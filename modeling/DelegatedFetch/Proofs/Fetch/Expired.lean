import DelegatedFetch.Proofs.Fetch.Latest
import DelegatedFetch.Proofs.Fetch.Purged
import DelegatedFetch.Proofs.Signing.Reserved

/-!
# A token that has expired is not used

A call that finds an access token whose time is over extends its session before
anything else. Where tokens are kept in the store, the call is rid of the token
after that, whether the session was extended or not: each token that a request
for the resource carries then was issued in the call.

What a caller writes into an authorization header of its own is not looked at.
Where the service wants its parameters elsewhere, such a header is sent as it
is, with any token in it.
-/

namespace DelegatedFetch.Call

variable {c : Call} {s : Surroundings} {a b : Accessor} {p p' q : Progress} {g g' : Stage}
  {info : TokenInfo} {handle : String} {x e : Exchange}

/-- A session is asked to be extended: the bare request for the access endpoint, signed with what an
accessor binds, has the token and the handle. -/
structure ExtendsSession (c : Call) (a : Accessor) (handle : String) (x : Exchange) : Prop where
  purpose : x.purpose = .extension
  signed : ∃ provider stamp, c.services.provider c.args.service = .ok provider ∧
    provider.access.bare.signWith a.credentials [(Parameter.sessionHandle, handle)]
      provider.access.placement stamp = .ok x.request
  token : ∀ t, a.token.token? = some t → (Parameter.token, t) ∈ x.request.allPairs
  handle : (Parameter.sessionHandle, handle) ∈ x.request.allPairs

theorem Exchanged.extendsSession (sound : Sound c s a q) (held : a.sessionHandle? = some handle)
    (h : Exchanged c s a .extension q x p) : ExtendsSession c a handle x := by
  have kind := delegated_of_sessionHandle sound.2 held
  obtain ⟨provider, declared, -, -⟩ := sound.2.declared kind
  obtain ⟨bareFor, placementFor⟩ := access_declared (.inr rfl) kind declared
  obtain ⟨⟨consumer, bare, placement, bound, extra, stamp⟩, rfl, of⟩ := h.signed
  rw [h.purpose] at of
  obtain rfl := Except.ok.inj (of.consumer.symm.trans sound.2.consumer)
  obtain rfl := Except.ok.inj (of.bare.symm.trans bareFor)
  obtain rfl := Except.ok.inj (of.placement.symm.trans placementFor)
  obtain rfl : extra = [(Parameter.sessionHandle, handle)] := by
    obtain ⟨b, coherent, -, same, rfl⟩ := of.generated
    rw [extraPairs, coherent.sessionHandle?_eq, same, ← sound.2.coherent.sessionHandle?_eq, held]
    rfl
  have made := of.signed
  dsimp only at made
  rw [credentialsOf_token] at made
  have all := Request.allPairs_signWith (not_hasOAuthHeader_bare provider.access) made
  have added (pair : String × String) (mem : pair ∈ provider.access.bare.addedPairs a.credentials
      [(Parameter.sessionHandle, handle)] stamp) : pair ∈ x.request.allPairs :=
    all ▸ Request.mem_writtenPairs_of_added of.extra of.fits made mem
  refine ⟨h.purpose, ⟨provider, stamp, declared, made⟩, fun t known => added _ ?_, added _ ?_⟩
  · simp [Request.addedPairs, Accessor.credentials_eq, known]
  · simp [Request.addedPairs]

/-- After some exchanges there was one more, which asked for a session to be extended. -/
def AsksNext (c : Call) (a : Accessor) (handle : String) (earlier : List Exchange) (p : Progress) :
    Prop := ∃ x, p.sent = earlier ++ [x] ∧ ExtendsSession c a handle x

/-- However it ends, the attempt to extend a session sends that one request, if it can be signed. -/
theorem Extended.asksNext {outcome : Except Stop Accessor} (sound : Sound c s a q)
    (held : a.sessionHandle? = some handle) (signs : c.SignsAccess s)
    (h : Extended c s a handle q outcome p) : AsksNext c a handle q.sent p := by
  cases h with
  | unanswered unanswered =>
    cases unanswered with
    | unsigned _ means => exact absurd signs (means (.inr rfl))
    | unreached exchanged => exact ⟨_, exchanged.sent, exchanged.extendsSession sound held⟩
  | refused exchanged | unkept exchanged =>
    exact ⟨_, exchanged.sent, exchanged.extendsSession sound held⟩
  | extended exchanged _ kept =>
    exact ⟨_, kept.sent.trans exchanged.sent, exchanged.extendsSession sound held⟩

/-- Each token that a request for the resource carries was issued in the call, before it. -/
def UsesIssued (c : Call) (sent : List Exchange) : Prop :=
  ∀ between e rest, sent = between ++ e :: rest → e.purpose = .resource →
    ∀ token, c.Carries e token → IssuedIn between token

theorem UsesIssued.of_idle {sent : List Exchange} (idle : ∀ y ∈ sent, y.purpose ≠ .resource) :
    c.UsesIssued sent := fun _ e _ split resource =>
  absurd resource (idle e (split ▸ List.mem_append_right _ List.mem_cons_self))

/-- A token that was issued and is kept in the store is the only one there is. -/
theorem Purged.begin_kept {later : List Exchange} {source : TokenSource}
    (server : c.policy.persistence = .server) (issued : IssuedIn later info.token)
    (idle : ∀ e ∈ later, e.purpose ≠ .resource) (kept : Kept c info q source p) :
    Purged c later p := by
  cases kept with
  | inStore _ set =>
    refine ⟨fun found held => ?_, .inl rfl, UsesIssued.of_idle idle⟩
    obtain rfl := Option.some.inj ((stored?_setToken set).symm.trans held)
    exact issued
  | inState client => cases server.symm.trans client

theorem Extended.idle {outcome : Except Stop Accessor}
    (h : Extended c s a handle (c.begun s) outcome p) : ∀ y ∈ p.sent, y.purpose ≠ .resource := by
  intro y mem
  rw [h.notes.purpose_of_mem (List.nil_append _).symm mem]
  decide

/-- What was issued takes the place of the token that has expired. -/
theorem Extended.boundSince (server : c.policy.persistence = .server)
    (h : Extended c s a handle (c.begun s) (.ok b) p) : BoundSince c [] b p := by
  have idle := h.idle
  cases h with
  | @extended x info _ _ _ exchanged issued kept =>
    have told : x.issued? = some info.token := issued_of_tokenInfo? issued
    have issued : IssuedIn p.sent (info.keepingHandle handle).token := by
      rw [kept.sent, exchanged.sent]
      exact .last told
    exact ⟨p.sent, (List.nil_append _).symm, .begin_kept server issued idle kept,
      .setToken issued⟩

/-- A call finds an access token whose time is over, with a session. -/
structure FindsExpired (c : Call) (s : Surroundings) (a : Accessor) (info : TokenInfo)
    (handle : String) : Prop where
  clean : c.request.checkCaller = .ok ()
  identity : c.checkIdentity = .ok ()
  built : Accessor.build s.store c.args c.token c.services (c.incomingState s.clock.millis) = .ok a
  access : ∃ source, a.token = .access info source
  expired : info.isExpired s.clock.millis = true
  held : info.sessionHandle = some handle

theorem FindsExpired.sessionHandle? (finds : c.FindsExpired s a info handle) :
    a.sessionHandle? = some handle := by
  obtain ⟨source, access⟩ := finds.access
  exact (Accessor.sessionHandle?_of_access access).trans finds.held

theorem FindsExpired.isExpired (finds : c.FindsExpired s a info handle) :
    a.isExpired s.clock.millis = true := by
  obtain ⟨source, access⟩ := finds.access
  rw [Accessor.isExpired_eq, access]
  exact finds.expired

/-- Nothing has happened but that the token was found to have expired. -/
inductive Opening (c : Call) (s : Surroundings) (a : Accessor) (handle : String) :
    Stage → Progress → Prop
  | attempting : Opening c s a handle (.attempting false) (c.begun s)
  | built : Opening c s a handle (.built false a) (c.begun s)
  | extending : Opening c s a handle (.extending false a handle) (c.begun s)

/-- If requests for the access endpoint can be signed, the first one of all asked for the session to
be extended. -/
def Opened (c : Call) (s : Surroundings) (a : Accessor) (handle : String) (p : Progress) : Prop :=
  c.SignsAccess s → ∃ x, p.sent.head? = some x ∧ ExtendsSession c a handle x

theorem Opened.notes {purpose : Purpose} (h : Opened c s a handle q) (notes : Notes c purpose q p) :
    Opened c s a handle p := by
  intro signs
  obtain ⟨x, first, asks⟩ := h signs
  exact ⟨x, notes.head? first, asks⟩

theorem Extended.opened {outcome : Except Stop Accessor} (sound : Sound c s a (c.begun s))
    (held : a.sessionHandle? = some handle)
    (h : Extended c s a handle (c.begun s) outcome p) : Opened c s a handle p := by
  intro signs
  obtain ⟨x, sent, asks⟩ := h.asksNext sound held signs
  refine ⟨x, ?_, asks⟩
  rw [sent]
  rfl

/-- The session was not extended, and the token is still to be forgotten; or nothing came back, and
the call has failed. -/
inductive Leaving : Stage → Progress → Prop
  | forgetting {b : Accessor} {p : Progress} (idle : ∀ y ∈ p.sent, y.purpose ≠ .resource) :
      Leaving (.forgetting false b) p
  | failed {f : Failure} {p : Progress} (idle : ∀ y ∈ p.sent, y.purpose ≠ .resource) :
      Leaving (.ended (.error (.failed f))) p

/-- Where a call stands that has found such a token: before the first request, or after it. Then the
token is left behind, or has been. -/
def ExpiredAt (c : Call) (s : Surroundings) (a : Accessor) (handle : String) (g : Stage)
    (p : Progress) : Prop :=
  Opening c s a handle g p ∨ Opened c s a handle p ∧ (Leaving g p ∨ PurgedAt c [] g p)

/-- The first thing that happens is that the session is asked to be extended. -/
theorem Opening.move (finds : c.FindsExpired s a info handle)
    (server : c.policy.persistence = .server) (sound : SoundAt c s g q)
    (h : Opening c s a handle g q) (move : c.Move g q g' p) : ExpiredAt c s a handle g' p := by
  have held := finds.sessionHandle?
  cases h with
  | attempting =>
    cases move with
    | build built =>
      obtain rfl := Except.ok.inj (built.symm.trans finds.built)
      exact .inl .built
    | unbuilt unbuilt => cases unbuilt.symm.trans finds.built
  | built =>
    cases move with
    | sign kind => cases (delegated_of_sessionHandle sound.2 held).symm.trans kind
    | keep _ good =>
      rcases good with recovered | fresh | unheld
      · cases recovered
      · cases fresh.symm.trans finds.isExpired
      · cases unheld.symm.trans held
    | expire _ held' =>
      obtain rfl := Option.some.inj (held'.symm.trans held)
      exact .inl .extending
  | extending =>
    have extended {outcome : Except Stop Accessor} {p : Progress}
        (ran : c.extendSession a handle (c.begun s) = (outcome, p)) :
        Extended c s a handle (c.begun s) outcome p := extended_of_run sound.2 held ran
    cases move with
    | extend ran =>
      exact .inr ⟨(extended ran).opened sound.2 held, .inr ((extended ran).boundSince server)⟩
    | unextended ran =>
      exact .inr ⟨(extended ran).opened sound.2 held, .inl (.forgetting (extended ran).idle)⟩
    | unreached ran =>
      exact .inr ⟨(extended ran).opened sound.2 held, .inl (.failed (extended ran).idle)⟩

/-- A token that is still to be forgotten is forgotten then. -/
theorem Leaving.move (h : Leaving g q) (move : c.Move g q g' p) : PurgedAt c [] g' p := by
  cases h with
  | forgetting idle =>
    cases move with
    | forget ran => exact BoundSince.begin (List.nil_append _).symm (discarded_of_run ran) idle
  | failed => cases move

theorem Reaches.expired (finds : c.FindsExpired s a info handle)
    (server : c.policy.persistence = .server) (h : Reaches c s g p) :
    ExpiredAt c s a handle g p := by
  induction h with
  | unchecked refused =>
    rcases refused with unclean | unknown
    · cases unclean.symm.trans finds.clean
    · cases unknown.symm.trans finds.identity
  | start => exact .inl .attempting
  | move before move ih =>
    have clean := before.clean move
    rcases ih with opening | ⟨opened, gone⟩
    · exact opening.move finds server before.sound move
    · obtain ⟨purpose, notes⟩ := move.notes before.sound clean
      refine .inr ⟨opened.notes notes, .inr ?_⟩
      rcases gone with leaving | purged
      · exact leaving.move move
      · exact purged.move before.sound clean move

theorem FindsExpired.usesIssued (finds : c.FindsExpired s a info handle)
    (server : c.policy.persistence = .server) :
    Opened c s a handle (c.fetch s).2 ∧ c.UsesIssued (c.fetch s).2.sent := by
  refine fetch_of_reaches (I := fun p => Opened c s a handle p ∧ c.UsesIssued p.sent)
    (fun _ _ h => h) fun outcome p reached => ?_
  rcases reached.expired finds server with opening | ⟨opened, leaving | purged⟩
  · cases opening
  · cases leaving with
    | failed idle => exact ⟨opened, .of_idle idle⟩
  · obtain ⟨later, rfl, purged⟩ := purged
    exact ⟨opened, purged.requested⟩

/-- Where tokens are kept in the store, a call that finds an expired token with a session asks first
for the session to be extended, if such a request can be signed at all; and no request for the
resource is signed with that token, unless it was issued again before. In such a request the token
is found at most where the caller has written it into a header of its own that is not replaced. -/
theorem expired_not_used (finds : c.FindsExpired s a info handle)
    (server : c.policy.persistence = .server) :
    (c.SignsAccess s → ∃ x rest, (c.fetch s).2.sent = x :: rest ∧ ExtendsSession c a handle x ∧
      (Parameter.token, info.token) ∈ x.request.allPairs) ∧
    ∀ between e rest, (c.fetch s).2.sent = between ++ e :: rest → e.purpose = .resource →
      (c.Carries e info.token → IssuedIn between info.token) ∧
      (info.token ∈ tokensIn e.request.allPairs → IssuedIn between info.token ∨
        c.declaredPlacement .resource ≠ .ok .authHeader ∧
          info.token ∈ tokensIn c.request.headerPairs) := by
  obtain ⟨source, access⟩ := finds.access
  obtain ⟨opened, uses⟩ := finds.usesIssued server
  refine ⟨fun signs => ?_, fun between e rest split resource => ?_⟩
  · obtain ⟨x, first, asks⟩ := opened signs
    obtain ⟨rest, sent⟩ := List.head?_eq_some_iff.1 first
    exact ⟨x, rest, sent, asks, asks.token _ (by rw [access]; rfl)⟩
  · refine ⟨uses between e rest split resource _, fun mem => ?_⟩
    rw [mem_tokensIn_resource_iff split resource] at mem
    exact mem.imp_left (uses between e rest split resource _)

/-- A gadget's call with a stored token that is named in the header of its own request, too; it gets
a fresh one, and finds the resource. -/
def namingCall (placement : Placement) : Call :=
  headedCall placement "OAuth oauth_token=\"stale\"" fun n => if n = 0 then refreshed else found

/-- The stored token that such a call finds: it has a session, and its time is over. -/
def staleInfo : TokenInfo := ⟨"stale", "hidden", some "handle", some 0⟩

def overdueStart : Surroundings :=
  { photoStart with
    store := { photoStore with
      tokens := Table.empty.insert ⟨"gadget", "photos", "ann", 0, ""⟩ staleInfo } }

def overdueAccessor (placement : Placement) : Accessor :=
  (Accessor.consumerOnly ⟨"key", .hmac "secret", none, none⟩ .get placement).setAccessToken staleInfo
    .store

theorem findsExpired_namingCall (placement : Placement) :
    (namingCall placement).FindsExpired overdueStart (overdueAccessor placement) staleInfo
      "handle" where
  clean := by cases placement <;> decide +kernel
  identity := rfl
  built := by cases placement <;> rfl
  access := ⟨.store, rfl⟩
  expired := by decide
  held := rfl

theorem signsAccess_namingCall (placement : Placement) :
    (namingCall placement).SignsAccess overdueStart :=
  ⟨_, _, _, rfl, rfl, rfl, rfl, trivial⟩

/-- The session is extended, and the resource asked for then. -/
theorem sent_namingCall (placement : Placement) (fits : placement ≠ .postBody) :
    ∃ x e, ((namingCall placement).fetch overdueStart).2.sent = [x] ++ e :: [] ∧
      e.purpose = .resource ∧ ¬ IssuedIn [x, e] "stale" := by
  have told : ((namingCall placement).fetch overdueStart).2.sent.map
      (fun e => (e.purpose, e.issued?)) = [(.extension, some "fresh"), (.resource, none)] := by
    cases placement with
    | postBody => exact absurd rfl fits
    | _ => decide +kernel
  obtain ⟨x, e, sent, first, second⟩ := eq_pair_of_map told
  refine ⟨x, e, sent, congrArg Prod.fst second, ?_⟩
  rintro ⟨y, mem, issued⟩
  rcases List.mem_pair.1 mem with rfl | rfl
  · have other : y.issued? = some "fresh" := congrArg Prod.snd first
    simp [other] at issued
  · have other : y.issued? = none := congrArg Prod.snd second
    simp [other] at issued

/-- Where the header takes the parameters, the expired token is in the first request only. -/
theorem expired_not_used_replaced : ∃ x e,
    ((namingCall .authHeader).fetch overdueStart).2.sent = [x] ++ e :: [] ∧
      ExtendsSession (namingCall .authHeader) (overdueAccessor .authHeader) "handle" x ∧
      (Parameter.token, "stale") ∈ x.request.allPairs ∧ e.purpose = .resource ∧
      "stale" ∉ tokensIn e.request.allPairs := by
  obtain ⟨x, e, sent, resource, unissued⟩ := sent_namingCall .authHeader (by decide)
  obtain ⟨opens, rest⟩ := expired_not_used (findsExpired_namingCall .authHeader) rfl
  obtain ⟨y, later, same, asks, named⟩ := opens (signsAccess_namingCall _)
  obtain ⟨rfl, -⟩ := List.cons.inj (same.symm.trans sent)
  refine ⟨y, e, sent, asks, named, resource, fun mem => ?_⟩
  rcases (rest [y] e [] sent resource).2 mem with ⟨z, again, issued⟩ | ⟨other, -⟩
  · exact unissued ⟨z, List.mem_cons.2 (.inl (List.mem_singleton.1 again)), issued⟩
  · exact other rfl

/-- Where the query takes them, the request for the resource has the expired token in its header,
though it was not issued again. -/
theorem keeps_expired_header :
    (namingCall .uriQuery).FindsExpired overdueStart (overdueAccessor .uriQuery) staleInfo
      "handle" ∧ (namingCall .uriQuery).policy.persistence = .server ∧
    ∃ x e, ((namingCall .uriQuery).fetch overdueStart).2.sent = [x] ++ e :: [] ∧
      e.purpose = .resource ∧ staleInfo.token ∈ tokensIn e.request.allPairs ∧
      ¬ IssuedIn [x, e] staleInfo.token := by
  obtain ⟨x, e, sent, resource, unissued⟩ := sent_namingCall .uriQuery (by decide)
  refine ⟨findsExpired_namingCall .uriQuery, rfl, x, e, sent, resource, ?_, unissued⟩
  rw [mem_tokensIn_resource_iff sent resource]
  exact .inr ⟨by decide +kernel, by decide +kernel⟩

end DelegatedFetch.Call
