import DelegatedFetch.Proofs.Fetch.CacheHistory
import DelegatedFetch.Proofs.Fetch.CacheKey
import DelegatedFetch.Proofs.Fetch.Outcome
import DelegatedFetch.Proofs.Fetch.Personal

/-!
# Whom a cached response is served to

Calls that share a cache are answered with what others have got. A response was put there by a
call with the same key, and whether the key tells the viewer is decided when the resource is
asked for: it does if the viewer is signed, or if an access token is bound at that attempt. So a
response to a request that carries a token or names the viewer is served to that viewer alone,
for the gadget, the service, the token name and the URL that it was got for.

This is about the parameters that the engine puts into a request. The header of a caller is kept
where they go elsewhere, and the key does not tell it: a caller that names its viewer there by
itself gets a response that is served to others.
-/

namespace DelegatedFetch

namespace Call

open Step

variable {c : Call} {s : Surroundings} {a : Accessor} {q p : Progress}

/-- What a cache in use holds under a key. -/
def heldUnder (cache : Option Cache) (key : String) : Option CachedResponse :=
  cache.bind (·.entries.find? key)

variable {cache later : Option Cache} {key : String} {entry : CachedResponse}

theorem heldUnder_eq_some_iff : heldUnder cache key = some entry ↔
    ∃ inUse, cache = some inUse ∧ inUse.entries.find? key = some entry := Option.bind_eq_some_iff

/-- What is held under a key, was held or has been got. -/
theorem CacheGains.heldUnder {got : Option Response} (gains : CacheGains got cache later)
    (held : heldUnder later key = some entry) : Call.heldUnder cache key = some entry ∨
      entry.response.isSuccess = true ∧ got = some entry.response := by
  obtain ⟨inUse', present, found⟩ := heldUnder_eq_some_iff.1 held
  obtain ⟨inUse, before, gained⟩ := gains inUse' present
  rcases gained.held _ ((Table.find?_eq_some_iff _).1 found) with old | new
  · exact .inl (heldUnder_eq_some_iff.2 ⟨inUse, before, (Table.find?_eq_some_iff _).2 old⟩)
  · exact .inr new

/-- A cache that has gained nothing, has held all that it holds. -/
theorem CacheGains.heldBefore (gains : CacheGains none cache later)
    (held : Call.heldUnder later key = some entry) : Call.heldUnder cache key = some entry :=
  (gains.heldUnder held).resolve_right fun got => Option.some_ne_none _ got.2.symm

/-- A cache has lost entries at most, but for one key. -/
def ChangesUnder (key? : Option String) (cache later : Option Cache) : Prop :=
  ∀ key entry, heldUnder later key = some entry → heldUnder cache key = some entry ∨ key? = some key

theorem ChangesUnder.gains {key? : Option String} (gains : CacheGains none cache later) :
    ChangesUnder key? cache later := fun _ _ held => .inl (gains.heldBefore held)

theorem ChangesUnder.trans {key? : Option String} {last : Option Cache}
    (h : ChangesUnder key? cache later) (h' : ChangesUnder key? later last) :
    ChangesUnder key? cache last :=
  fun key entry held => (h' key entry held).elim (h key entry) .inr

theorem changesUnder_set (inUse : Cache) (key : String) (response : Response) (now : Int) :
    ChangesUnder (some key) (some inUse) (some (inUse.set key response now)) := by
  intro other entry held
  rcases (inUse.changes_after ⟨.set key response, now⟩).held held with stored | ⟨-, before⟩
  · by_cases same : key = other
    · exact .inr (congrArg some same)
    · have unstored : inUse.storedBy? other ⟨.set key response, now⟩ = none :=
        if_neg fun wanted => same wanted.1
      cases unstored.symm.trans stored
  · exact .inl before

/-- While the resource is got, the cache gains something under the key for it at most. -/
theorem changesUnder_fetchResource {outcome : Except Stop Response}
    (ran : c.fetchResource a q = (outcome, p)) :
    ChangesUnder (c.cacheKey a q.cache) q.cache p.cache := by
  refine Ensures.outcome (P := (· = q))
    (T := fun _ p => ChangesUnder (c.cacheKey a q.cache) q.cache p.cache) ?_ rfl ran
  rw [fetchResource]
  apply ensures_get_bind
  rintro q rfl
  generalize c.cacheKey a q.cache = key?
  apply Ensures.bind (R := fun _ p => ChangesUnder key? q.cache p.cache)
  · refine ensures_cached? fun p cache hit same looked => ?_
    obtain rfl := same
    exact .gains (cacheGains_of_lookedUp looked)
  intro hit
  cases hit with
  | some hit => exact ensures_pure fun _ h => h
  | none =>
    apply Ensures.bind (R := fun _ p => ChangesUnder key? q.cache p.cache)
      (ensures_sign (fun _ _ _ _ h _ _ => h) fun _ _ _ h _ => h)
    intro signed
    apply Ensures.bind (R := fun _ p => ChangesUnder key? q.cache p.cache)
      (ensures_send (fun _ _ h _ => h) fun _ _ h _ => h)
    intro response
    refine Ensures.bind (R := fun _ p => ChangesUnder key? q.cache p.cache)
      (ensures_modify fun p h => ?_) fun _ => ensures_pure fun _ h => h
    cases key? with
    | none => exact h
    | some key =>
      refine h.trans ?_
      dsimp only
      cases p.cache with
      | none => exact fun _ _ => .inl
      | some inUse => exact changesUnder_set inUse key response p.clock.steady

/-- The resource that a call ends with was got at the last stage before the end. -/
theorem Reaches.delivered {bare : Response} (h : Reaches c s (.ended (.ok (some bare))) p) :
    ∃ recovered a q, Reaches c s (.delivering recovered a) q ∧
      c.fetchResource a q = (.ok bare, p) ∧ bare.resourceFailure? a.hasAccessToken = none := by
  generalize same : Stage.ended (.ok (some bare)) = g at h
  cases h with
  | unchecked => cases same
  | start => cases same
  | move before move =>
    cases move with
    | deliver ran good =>
      obtain rfl := Option.some.inj (Except.ok.inj (Stage.ended.inj same))
      exact ⟨_, _, _, before, ran, good⟩
    | @approve _ _ _ _ outcome =>
      cases outcome <;> cases same
    | @extend rejected | @forget rejected => cases rejected <;> cases same
    | _ => cases same

/-- A key for the resource is the same as long as the cache gains nothing. -/
theorem cacheKey_of_gains {got : Option Response} (gains : CacheGains got cache later)
    (keyed : c.cacheKey a later = some key) : c.cacheKey a cache = some key := by
  cases later with
  | none => cases keyed
  | some inUse' =>
    obtain ⟨inUse, rfl, gained⟩ := gains inUse' rfl
    rw [← keyed, cacheKey, cacheKey, gained.enabled]

end Call

open Call

namespace Visit

variable {v u : Visit} {key : String} {e : Exchange} {response : Response} {entry : CachedResponse}

/-- The last request of a visit has got a success for the resource. It was signed with what the key
tells about, and the response may be kept under that. -/
structure Caches (v : Visit) (key : String) (e : Exchange) (response : Response) : Prop where
  signed : ∃ (a : Accessor) (g : Signing) (before : List Exchange),
    v.call.cacheKey a v.start.cache = some key ∧ g.bound = a.token ∧
      g.Of v.call v.start before e.purpose e.request ∧ v.final.sent = before ++ [e]
  resource : e.purpose = .resource
  got : e.response = some response
  success : response.isSuccess = true

/-- A visit asks for the resource, and the cache has a response under the key for it. -/
def Served (v : Visit) (key : String) (response : Response) : Prop :=
  ∃ recovered a q inUse, Reaches v.call v.start (.delivering recovered a) q ∧
    v.call.cacheKey a q.cache = some key ∧ q.cache = some inUse ∧
      (inUse.get key q.clock.steady).1 = some response

/-- What a visit leaves under a key was there when it began, or the visit has got it. -/
theorem held_or_caches (held : heldUnder v.final.cache key = some entry) :
    heldUnder v.start.cache key = some entry ∨ ∃ e, v.Caches key e entry.response := by
  have reached := v.call.reaches_run v.start
  have ended := reached.stands
  obtain ⟨entropy, left⟩ := v.call.fetch_progress v.start
  have cache : v.final.cache = (v.call.run (v.call.begun v.start)).2.cache := by rw [final, left]
  have sent : v.final.sent = (v.call.run (v.call.begun v.start)).2.sent := by rw [final, left]
  rw [cache] at held
  generalize v.call.run (v.call.begun v.start) = ran at reached ended sent held
  obtain ⟨outcome, p⟩ := ran
  rcases outcome with (r | f) | _ | bare
  · exact .inl (ended.gains.heldBefore held)
  · exact .inl (ended.gains.heldBefore held)
  · exact .inl (ended.gains.heldBefore held)
  obtain ⟨recovered, a, q, delivering, ran, good⟩ := reached.delivered
  have before : CacheGains none v.start.cache q.cache := delivering.stands.gains
  rcases changesUnder_fetchResource ran key entry held with old | keyed
  · exact .inl (before.heldBefore old)
  have clean := delivering.clean (.deliver ran good)
  cases fetched_of_run delivering.sound.2 clean delivering.sound.1 ran with
  | cached still => exact .inl (before.heldBefore (still.gains.heldBefore held))
  | @answered x response p exchanged answered =>
    rcases exchanged.gains.heldUnder held with old | ⟨success, got⟩
    · exact .inl (before.heldBefore old)
    · obtain ⟨g, bound, signed⟩ := exchanged.signed
      rw [Exchange.resource?, if_pos exchanged.purpose] at got
      exact .inr ⟨x, ⟨a, g, q.sent, cacheKey_of_gains before keyed, bound, signed,
        sent.trans exchanged.sent⟩, exchanged.purpose, got, success⟩

/-- What a visit is served, was in the cache when it began. -/
theorem Served.held (served : v.Served key response) : (∃ entry,
    heldUnder v.start.cache key = some entry ∧ entry.response = response) ∧
      ∃ a, v.call.cacheKey a v.start.cache = some key := by
  obtain ⟨recovered, a, q, inUse, reached, keyed, present, hit⟩ := served
  have gains : CacheGains none v.start.cache q.cache := reached.stands.gains
  obtain ⟨entry, found, same⟩ := Cache.find?_of_get hit
  have held : heldUnder q.cache key = some entry := heldUnder_eq_some_iff.2 ⟨inUse, present, found⟩
  exact ⟨⟨entry, gains.heldBefore held, same⟩, a, cacheKey_of_gains gains keyed⟩

/-- A visit that asks for the resource is served what its cache answers. -/
theorem exists_served {recovered : Bool} {a : Accessor} {q : Progress}
    (reached : Reaches v.call v.start (.delivering recovered a) q)
    (keyed : v.call.cacheKey a q.cache = some key)
    (hits : (q.cache.bind fun inUse => (inUse.get key q.clock.steady).1).isSome = true) :
    ∃ response, v.Served key response := by
  obtain ⟨response, hit⟩ := Option.isSome_iff_exists.1 hits
  obtain ⟨inUse, present, hit⟩ := Option.bind_eq_some_iff.1 hit
  exact ⟨response, recovered, a, q, inUse, reached, keyed, present, hit⟩

/-- Owner and viewer have names if they are known, no metadata comes with a reply, and the parts of the
keys can be measured. -/
structure Admitted (v : Visit) : Prop where
  owner : v.call.token.owner ≠ some ""
  viewer : v.viewer ≠ some ""
  plain : ∀ n response, (v.call.replies n).outcome = .ok response → response.metadata = .empty
  short : ∀ a, (v.call.cacheIdentity a).Short v.call.request

theorem Admitted.named (h : v.Admitted) (a : Accessor) : (v.call.cacheIdentity a).Named := by
  refine ⟨fun unnamed => h.owner ?_, fun unnamed => h.viewer ?_⟩
  · exact (Option.filter_eq_some_iff.1 unnamed).1
  · exact (Option.filter_eq_some_iff.1 unnamed).1

/-- Visits of one viewer, for the same gadget, service, token name and URL. -/
structure SameUse (u v : Visit) : Prop where
  viewer : v.viewer = u.viewer
  appUrl : v.call.token.appUrl = u.call.token.appUrl
  service : v.call.args.service = u.call.args.service
  tokenName : v.call.args.tokenName = u.call.args.tokenName
  url : v.call.request.url.render = u.call.request.url.render

end Visit

/-- What a new cache has become after some visits, one after the other, by whomever and for whatever. -/
inductive SharedCache (ttl capacity : Nat) : List Visit → Option Cache → Prop
  | start : SharedCache ttl capacity [] (some { ttl, capacity })
  | visit {visits : List Visit} {v : Visit} (before : SharedCache ttl capacity visits v.start.cache)
      (admitted : v.Admitted) : SharedCache ttl capacity (visits ++ [v]) v.final.cache

/-- The digest has no collision at the keys of some visits. -/
def DigestsApart (visits : List Visit) : Prop :=
  ∀ u ∈ visits, ∀ v ∈ visits, ∀ a b,
    Sha256.hash ((u.call.cacheIdentity a).preimage u.call.request) =
        Sha256.hash ((v.call.cacheIdentity b).preimage v.call.request) →
      (u.call.cacheIdentity a).preimage u.call.request =
        (v.call.cacheIdentity b).preimage v.call.request

namespace SharedCache

variable {ttl capacity : Nat} {visits later : List Visit} {u v : Visit} {cache : Option Cache}
  {key : String} {entry : CachedResponse} {e : Exchange} {response : Response}

theorem admitted (run : SharedCache ttl capacity visits cache) : ∀ v ∈ visits, v.Admitted := by
  induction run with
  | start => exact fun v mem => absurd mem List.not_mem_nil
  | visit before admitted ih =>
    intro u mem
    rcases List.mem_append.1 mem with earlier | last
    · exact ih u earlier
    · exact List.mem_singleton.1 last ▸ admitted

/-- The visits before some visit have left the cache that it finds. -/
theorem at_visit (run : SharedCache ttl capacity (visits ++ v :: later) cache) :
    SharedCache ttl capacity visits v.start.cache := by
  generalize all : visits ++ v :: later = every at run
  induction run generalizing later with
  | start => simp at all
  | visit before admitted ih =>
    rcases split_snoc all.symm with ⟨rfl, rfl, -⟩ | ⟨init, -, among⟩
    · exact before
    · exact ih among.symm

/-- What a shared cache holds, some visit has got under that key. -/
theorem exists_caches (run : SharedCache ttl capacity visits cache)
    (held : heldUnder cache key = some entry) : ∃ u ∈ visits, ∃ e, u.Caches key e entry.response := by
  induction run with
  | start => cases held
  | @visit visits v before admitted ih =>
    rcases Visit.held_or_caches held with earlier | ⟨e, caches⟩
    · obtain ⟨u, mem, caches⟩ := ih earlier
      exact ⟨u, List.mem_append_left _ mem, caches⟩
    · exact ⟨v, List.mem_append_right _ List.mem_cons_self, e, caches⟩

theorem plainCache (run : SharedCache ttl capacity visits cache) : PlainCache cache := by
  induction run with
  | start =>
    intro inUse same entry mem
    obtain rfl := Option.some.inj same
    cases mem
  | visit before admitted ih => exact Visit.plainCache_final admitted.plain ih

/-- A visit that is served what another one has kept for its viewer is one of that viewer's. -/
theorem sameUse_of_caches (admitted : u.Admitted) (admitted' : v.Admitted)
    (apart : ∀ a b, Sha256.hash ((u.call.cacheIdentity a).preimage u.call.request) =
        Sha256.hash ((v.call.cacheIdentity b).preimage v.call.request) →
      (u.call.cacheIdentity a).preimage u.call.request =
        (v.call.cacheIdentity b).preimage v.call.request)
    (caches : u.Caches key e response) (personal : u.call.Personal e) (known : u.viewer ≠ none)
    {b : Accessor} (keyed : v.call.cacheKey b v.start.cache = some key) : u.SameUse v := by
  obtain ⟨a, g, before, keyed', bound, signed, -⟩ := caches.signed
  have viewer := viewer_cacheIdentity signed caches.resource bound personal
  have one := (cacheKey_eq_some keyed').trans (cacheKey_eq_some keyed).symm
  obtain ⟨same, -, url, -⟩ := CacheIdentity.eq_of_key_eq (admitted.short a) (admitted'.short b)
    (admitted.named a) (admitted'.named b) (apart a b) one
  obtain ⟨name, known⟩ := Option.ne_none_iff_exists'.1 known
  have told : (v.call.cacheIdentity b).viewer = some name := by
    rw [← same, viewer]
    exact known
  refine ⟨?_, ?_, ?_, ?_, url.symm⟩
  · exact (Option.filter_eq_some_iff.1 told).1.trans known.symm
  · exact (congrArg CacheIdentity.appUrl same).symm
  · exact (congrArg CacheIdentity.service same).symm
  · exact (congrArg CacheIdentity.tokenName same).symm

/-- However visits share a cache, it holds no metadata. What one of them is served was kept by a visit
before; and whichever of them have kept something there for their viewer, were made by that viewer,
for the same gadget, service, token name and URL. -/
theorem served_to_viewer (run : SharedCache ttl capacity visits cache) (apart : DigestsApart visits) :
    PlainCache cache ∧ ∀ earlier v later, visits = earlier ++ v :: later →
      ∀ key response, v.Served key response →
        (∃ u ∈ earlier, ∃ e, u.Caches key e response) ∧
          ∀ u ∈ earlier, ∀ e kept, u.Caches key e kept → u.call.Personal e → u.viewer ≠ none →
            u.SameUse v := by
  refine ⟨run.plainCache, fun earlier v later all key response served => ?_⟩
  subst all
  obtain ⟨⟨entry, held, rfl⟩, b, keyed⟩ := served.held
  refine ⟨run.at_visit.exists_caches held, fun u mem e kept caches personal known => ?_⟩
  have mem : u ∈ earlier ++ v :: later := List.mem_append_left _ mem
  have mem' : v ∈ earlier ++ v :: later := List.mem_append_right _ List.mem_cons_self
  exact sameUse_of_caches (run.admitted u mem) (run.admitted v mem') (apart u mem v mem') caches
    personal known keyed

end SharedCache

/-- The key for the photos of the first call of the gadget. -/
def photoKey : String :=
  ((photoCall fun _ => found).cacheIdentity (instanceAccessor "token")).key
    (photoCall fun _ => found).request

/-- A visit for the photos of a viewer, where results are cached. -/
def cachingVisit : Visit where
  call := photoCall fun _ => found
  start := { photoStart with cache := some { ttl := 1000, capacity := 10 } }

/-- The same once more. -/
def repeatedVisit : Visit where
  call := photoCall fun _ => found
  start := { photoStart with cache := cachingVisit.final.cache }

theorem cacheIdentity_photoCall (a : Accessor) : (photoCall fun _ => found).cacheIdentity a =
    ⟨"gadget", "photos", "", some "ann", some "ann"⟩ := rfl

theorem admitted_photoCall (start : Surroundings) :
    ({ call := photoCall fun _ => found, start } : Visit).Admitted := by
  refine ⟨?_, ?_, fun n response replied => ?_, fun a => ?_⟩
  · exact (by decide : some "ann" ≠ some "")
  · exact (by decide : some "ann" ≠ some "")
  · rw [← Except.ok.inj replied]
  · dsimp only
    rw [cacheIdentity_photoCall]
    decide +kernel

theorem sharedCache_repeatedVisit :
    SharedCache 1000 10 [cachingVisit, repeatedVisit] repeatedVisit.final.cache := by
  have first : SharedCache 1000 10 ([] ++ [cachingVisit]) cachingVisit.final.cache :=
    .visit .start (admitted_photoCall _)
  have second : SharedCache 1000 10 ([cachingVisit] ++ [repeatedVisit]) repeatedVisit.final.cache :=
    .visit first (admitted_photoCall _)
  exact second

theorem digestsApart_repeatedVisit : DigestsApart [cachingVisit, repeatedVisit] := by
  have one {v : Visit} (mem : v ∈ [cachingVisit, repeatedVisit]) :
      v.call = photoCall fun _ => found := by
    simp only [List.mem_cons, List.not_mem_nil, or_false] at mem
    rcases mem with rfl | rfl <;> rfl
  intro u mem v mem' a b _
  rw [one mem, one mem', cacheIdentity_photoCall, cacheIdentity_photoCall]

theorem served_repeatedVisit : ∃ response, repeatedVisit.Served photoKey response := by
  have hits : (cachingVisit.final.cache.bind fun inUse => (inUse.get photoKey 0).1).isSome = true := by
    decide +kernel
  have start : Reaches repeatedVisit.call repeatedVisit.start (.attempting false)
      (repeatedVisit.call.begun repeatedVisit.start) := .start (by decide +kernel) (by decide +kernel)
  have built := start.move (.build (a := instanceAccessor "token") (by decide +kernel))
  have chosen := built.move (.keep rfl (.inr (.inl rfl)))
  have delivering := chosen.move (.use (BoundToken.isSettled_access _ _) nofun)
  exact Visit.exists_served delivering (by decide +kernel) hits

/-- What the second visit is served was kept by the first one, which is one of the same viewer. -/
theorem SharedCache.served_to_viewer_repeated : ∃ response e,
    repeatedVisit.Served photoKey response ∧
      cachingVisit.Caches photoKey e response ∧
      cachingVisit.call.Personal e ∧ cachingVisit.SameUse repeatedVisit := by
  obtain ⟨response, served⟩ := served_repeatedVisit
  obtain ⟨-, serves⟩ := SharedCache.served_to_viewer sharedCache_repeatedVisit
    digestsApart_repeatedVisit
  obtain ⟨⟨u, mem, e, caches⟩, viewers⟩ := serves [cachingVisit] repeatedVisit [] rfl _ _
    served
  obtain rfl := List.mem_singleton.1 mem
  obtain ⟨a, g, before, -, -, signed, -⟩ := caches.signed
  have personal : cachingVisit.call.Personal e :=
    (personal_iff signed caches.resource).2 (.inr ⟨rfl, nofun⟩)
  exact ⟨response, e, served, caches, personal, viewers _ mem e _ caches personal nofun⟩

/-- A signed fetch for a viewer who is not signed, with headers of the caller's. -/
def unsignedCall (viewer : String) (headers : Headers) : Call :=
  let call := photoCall fun _ => found
  { call with
    request := { call.request with headers }
    token := { call.token with viewer := some viewer }
    args := { FetchArguments.signed with signViewer := false } }

/-- Ann's visit, whose caller writes a token of hers and her name into a header. -/
def annsVisit : Visit where
  call := unsignedCall "ann"
    [("Authorization", "OAuth oauth_token=\"anns\", opensocial_viewer_id=\"ann\"")]
  start := { photoStart with cache := some { ttl := 1000, capacity := 10 } }

/-- Bob's visit after that. -/
def bobsVisit : Visit where
  call := unsignedCall "bob" []
  start := { photoStart with cache := annsVisit.final.cache }

/-- What the key tells of such a call: the viewer only if it had an access token. -/
def unsignedIdentity (viewer : Option String) : CacheIdentity := ⟨"gadget", "", "", some "ann", viewer⟩

theorem cacheIdentity_unsigned {v : Visit} (mem : v ∈ [annsVisit, bobsVisit]) (a : Accessor) :
    ∃ viewer ∈ [none, some "ann", some "bob"],
      (v.call.cacheIdentity a).parts v.call.request =
        (unsignedIdentity viewer).parts annsVisit.call.request := by
  simp only [List.mem_cons, List.not_mem_nil, or_false] at mem
  rcases mem with rfl | rfl
  · refine ⟨(some "ann").filter fun _ => a.hasAccessToken, ?_, rfl⟩
    cases a.hasAccessToken <;> decide
  · refine ⟨(some "bob").filter fun _ => a.hasAccessToken, ?_, rfl⟩
    cases a.hasAccessToken <;> decide

theorem admitted_unsigned {v : Visit} (mem : v ∈ [annsVisit, bobsVisit]) : v.Admitted := by
  have names : v.call.token.owner ≠ some "" ∧ v.viewer ≠ some "" := by
    simp only [List.mem_cons, List.not_mem_nil, or_false] at mem
    rcases mem with rfl | rfl <;> exact ⟨by decide, by decide⟩
  have short : ∀ viewer ∈ [none, some "ann", some "bob"],
      (unsignedIdentity viewer).Short annsVisit.call.request := by decide +kernel
  refine ⟨names.1, names.2, fun n response replied => ?_, fun a => ?_⟩
  · have plain : v.call.replies n = found := by
      simp only [List.mem_cons, List.not_mem_nil, or_false] at mem
      rcases mem with rfl | rfl <;> rfl
    rw [plain] at replied
    rw [← Except.ok.inj replied]
  · obtain ⟨viewer, one, same⟩ := cacheIdentity_unsigned mem a
    rw [CacheIdentity.Short, same]
    exact short viewer one

theorem digestsApart_unsigned : DigestsApart [annsVisit, bobsVisit] := by
  have few : ∀ u ∈ [none, some "ann", some "bob"], ∀ v ∈ [none, some "ann", some "bob"],
      Sha256.hash ((unsignedIdentity u).preimage annsVisit.call.request) =
          Sha256.hash ((unsignedIdentity v).preimage annsVisit.call.request) →
        (unsignedIdentity u).preimage annsVisit.call.request =
          (unsignedIdentity v).preimage annsVisit.call.request := by decide +kernel
  intro u mem v mem' a b
  obtain ⟨viewer, one, same⟩ := cacheIdentity_unsigned mem a
  obtain ⟨viewer', one', same'⟩ := cacheIdentity_unsigned mem' b
  rw [CacheIdentity.preimage, CacheIdentity.preimage, same, same']
  exact few viewer one viewer' one'

/-- The key of both visits. -/
def unsignedKey : String := (unsignedIdentity none).key annsVisit.call.request

theorem served_bobsVisit : ∃ response, bobsVisit.Served unsignedKey response := by
  have hits : (annsVisit.final.cache.bind fun inUse => (inUse.get unsignedKey 0).1).isSome = true := by
    decide +kernel
  have start : Reaches bobsVisit.call bobsVisit.start (.attempting false)
      (bobsVisit.call.begun bobsVisit.start) := .start (by decide +kernel) (by decide +kernel)
  have built := start.move
    (.build (a := .consumerOnly ⟨"key", .hmac "secret", none, none⟩ .get .uriQuery) (by decide +kernel))
  have delivering := built.move (.sign rfl)
  exact Visit.exists_served delivering (by decide +kernel) hits

/-- Bob is served the response to a request with a token of Ann's and her name in it, since both came
with a header that the key does not tell. No digests collide for that. -/
theorem SharedCache.served_to_other_viewer :
    SharedCache 1000 10 [annsVisit, bobsVisit] bobsVisit.final.cache ∧
      DigestsApart [annsVisit, bobsVisit] ∧
      annsVisit.viewer = some "ann" ∧ bobsVisit.viewer = some "bob" ∧
      ∃ key response e, annsVisit.Caches key e response ∧
        (Parameter.token, "anns") ∈ e.request.allPairs ∧
        (Parameter.viewerId, "ann") ∈ e.request.allPairs ∧ bobsVisit.Served key response := by
  have first : SharedCache 1000 10 ([] ++ [annsVisit]) annsVisit.final.cache :=
    .visit .start (admitted_unsigned (by simp))
  have second : SharedCache 1000 10 ([annsVisit] ++ [bobsVisit]) bobsVisit.final.cache :=
    .visit first (admitted_unsigned (by simp))
  obtain ⟨response, served⟩ := served_bobsVisit
  obtain ⟨⟨entry, held, rfl⟩, -⟩ := served.held
  obtain ⟨u, mem, e, caches⟩ := first.exists_caches held
  obtain rfl := List.mem_singleton.1 mem
  obtain ⟨a, g, before, -, -, signed, -⟩ := caches.signed
  have header := signed.headerPairs caches.resource rfl (by decide : Placement.uriQuery ≠ _)
  have written : annsVisit.call.request.headerPairs =
      [(Parameter.token, "anns"), (Parameter.viewerId, "ann")] := by decide +kernel
  rw [written] at header
  have read {q : String × String} (mem : q ∈ e.request.headerPairs) : q ∈ e.request.allPairs :=
    List.mem_append_left _ (List.mem_append_left _ mem)
  exact ⟨second, digestsApart_unsigned, rfl, rfl, unsignedKey, entry.response, e, caches,
    read (by simp [header]), read (by simp [header]), served⟩

end DelegatedFetch
