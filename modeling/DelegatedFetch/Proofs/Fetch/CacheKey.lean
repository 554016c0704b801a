import Mathlib.Data.List.Basic
import DelegatedFetch.Proofs.Fetch.Sent
import DelegatedFetch.Proofs.Text.Hex

/-!
# What a cache key tells

A result is kept under the digest of its request and of the identity that the
request is signed for. Each part has its length before it, so that the key
tells every one of them, as far as the digest has no collision there; but a
name that is absent counts as an empty one.

The parts are not all that a signature depends on. Two calls with one key sign
the same if they agree in the rest, too: in the gadget instance, the headers,
the kind of the fetch and the other fields of `AgreeBeyondKey`. If they do not,
one of them can be given the answer to what the other one has signed.
-/

namespace DelegatedFetch

/-- A length that fits eight bytes tells where a part ends. -/
theorem measured_append_inj {x y rest rest' : Bytes} (hx : x.length < Nat.pow 256 8)
    (hy : y.length < Nat.pow 256 8) (h : measured x ++ rest = measured y ++ rest') :
    x = y ∧ rest = rest' := by
  simp only [measured, List.append_assoc] at h
  obtain ⟨lengths, parts⟩ := List.append_inj h (by simp)
  have value := congrArg Bytes.toNat lengths
  rw [Bytes.toNat_ofNat, Bytes.toNat_ofNat] at value
  have same : x.length = y.length := by
    rwa [Nat.mod_eq_of_lt hx, Nat.mod_eq_of_lt hy] at value
  exact List.append_inj parts same

theorem flatMap_measured_inj {xs ys : List Bytes} (hx : ∀ x ∈ xs, x.length < Nat.pow 256 8)
    (hy : ∀ y ∈ ys, y.length < Nat.pow 256 8) (h : xs.flatMap measured = ys.flatMap measured) :
    xs = ys := by
  have starts (x : Bytes) (rest : Bytes) : measured x ++ rest ≠ [] := by
    intro empty
    have length := congrArg List.length empty
    simp [measured] at length
  induction xs generalizing ys with
  | nil =>
    cases ys with
    | nil => rfl
    | cons y ys => exact absurd h.symm (starts y _)
  | cons x xs ih =>
    cases ys with
    | nil => exact absurd h (starts x _)
    | cons y ys =>
      rw [List.flatMap_cons, List.flatMap_cons] at h
      rw [List.forall_mem_cons] at hx hy
      obtain ⟨rfl, rest⟩ := measured_append_inj hx.1 hy.1 h
      rw [ih hx.2 hy.2 rest]

theorem Method.name_injective {m n : Method} (h : m.name = n.name) : m = n := by
  have read := congrArg parse? h
  rwa [parse?_name, parse?_name, Option.some_inj] at read

namespace CacheIdentity

variable {i j : CacheIdentity} {r t : Request}

/-- What the digest is taken of. -/
def preimage (i : CacheIdentity) (r : Request) : Bytes := (i.parts r).flatMap measured

/-- The length of each part fits eight bytes. -/
def Short (i : CacheIdentity) (r : Request) : Prop :=
  ∀ part ∈ i.parts r, part.length < Nat.pow 256 8

instance (i : CacheIdentity) (r : Request) : Decidable (i.Short r) :=
  inferInstanceAs (Decidable (∀ part ∈ i.parts r, part.length < Nat.pow 256 8))

/-- An identity that is known has a name. -/
def Named (i : CacheIdentity) : Prop := i.owner ≠ some "" ∧ i.viewer ≠ some ""

instance (i : CacheIdentity) : Decidable i.Named :=
  inferInstanceAs (Decidable (i.owner ≠ some "" ∧ i.viewer ≠ some ""))

/-- A name is told by its text, if it is not the empty one. -/
theorem eq_of_getD_eq {o o' : Option String} (h : o ≠ some "") (h' : o' ≠ some "")
    (same : o.getD "" = o'.getD "") : o = o' := by
  cases o with
  | none =>
    cases o' with
    | none => rfl
    | some name' => exact absurd (congrArg some same.symm) h'
  | some name =>
    cases o' with
    | none => exact absurd (congrArg some same) h
    | some name' => exact congrArg some same

/-- The parts tell all that they are made of, but that an absent owner or viewer counts as an empty
one. -/
theorem parts_eq_iff : i.parts r = j.parts t ↔
    r.method = t.method ∧ r.url.render = t.url.render ∧ r.body = t.body ∧ i.appUrl = j.appUrl ∧
      i.service = j.service ∧ i.tokenName = j.tokenName ∧ i.owner.getD "" = j.owner.getD "" ∧
      i.viewer.getD "" = j.viewer.getD "" := by
  have texts {x y : String} : Utf8.encode x = Utf8.encode y ↔ x = y :=
    ⟨Utf8.encode_injective, congrArg Utf8.encode⟩
  have methods {m n : Method} : m.name = n.name ↔ m = n :=
    ⟨Method.name_injective, congrArg Method.name⟩
  simp only [parts, List.cons.injEq, and_true, texts, methods]

/-- A key tells its parts, if they can be measured and the digest has no collision there. -/
theorem parts_eq_of_key_eq (short : i.Short r) (short' : j.Short t)
    (digest : Sha256.hash (i.preimage r) = Sha256.hash (j.preimage t) →
      i.preimage r = j.preimage t)
    (h : i.key r = j.key t) : i.parts r = j.parts t :=
  flatMap_measured_inj short short' (digest (Hex.encode_injective h))

/-- A key tells the method, the text of the URL, the body, and the identity. -/
theorem eq_of_key_eq (short : i.Short r) (short' : j.Short t) (named : i.Named) (named' : j.Named)
    (digest : Sha256.hash (i.preimage r) = Sha256.hash (j.preimage t) →
      i.preimage r = j.preimage t)
    (h : i.key r = j.key t) :
    i = j ∧ r.method = t.method ∧ r.url.render = t.url.render ∧ r.body = t.body := by
  obtain ⟨method, url, body, appUrl, service, tokenName, owner, viewer⟩ :=
    parts_eq_iff.1 (parts_eq_of_key_eq short short' digest h)
  refine ⟨?_, method, url, body⟩
  cases i
  cases j
  simp only [CacheIdentity.mk.injEq]
  exact ⟨appUrl, service, tokenName, eq_of_getD_eq named.1 named'.1 owner,
    eq_of_getD_eq named.2 named'.2 viewer⟩

/-- Two keys are the same exactly if each field is, an absent owner or viewer counting as an empty
one: no part can be shifted into its neighbour. -/
theorem key_eq_iff (short : i.Short r) (short' : j.Short t)
    (digest : Sha256.hash (i.preimage r) = Sha256.hash (j.preimage t) →
      i.preimage r = j.preimage t) :
    i.key r = j.key t ↔
      r.method = t.method ∧ r.url.render = t.url.render ∧ r.body = t.body ∧ i.appUrl = j.appUrl ∧
        i.service = j.service ∧ i.tokenName = j.tokenName ∧ i.owner.getD "" = j.owner.getD "" ∧
        i.viewer.getD "" = j.viewer.getD "" := by
  rw [← parts_eq_iff]
  refine ⟨parts_eq_of_key_eq short short' digest, fun same => ?_⟩
  rw [key, key, same]

/-- What the photo gadget fetches. -/
def photoRequest : Request := (Call.photoCall fun _ => Call.found).request

/-- A service and a token name, of which the one could lend the other a letter. -/
def sharedPhotos : CacheIdentity := ⟨"gadget", "photos", "shared", none, none⟩

/-- The same letters, cut elsewhere. -/
def shiftedPhotos : CacheIdentity := ⟨"gadget", "photo", "sshared", none, none⟩

/-- The letter that moves makes another key. -/
theorem key_eq_iff_shifted : sharedPhotos.Short photoRequest ∧ shiftedPhotos.Short photoRequest ∧
    Sha256.hash (sharedPhotos.preimage photoRequest) ≠
      Sha256.hash (shiftedPhotos.preimage photoRequest) ∧
    sharedPhotos.key photoRequest ≠ shiftedPhotos.key photoRequest := by
  have short : sharedPhotos.Short photoRequest := by decide +kernel
  have short' : shiftedPhotos.Short photoRequest := by decide +kernel
  have apart : Sha256.hash (sharedPhotos.preimage photoRequest) ≠
      Sha256.hash (shiftedPhotos.preimage photoRequest) := by
    decide +kernel
  refine ⟨short, short', apart, fun same => ?_⟩
  obtain ⟨-, -, -, -, service, -⟩ :=
    (key_eq_iff short short' fun collision => absurd collision apart).1 same
  exact absurd service (by decide)

end CacheIdentity

/-- A consumer is found by the gadget, the domain and the service. -/
theorem Store.consumer_congr {t t' : SecurityToken} (store : Store) (service : String)
    (provider : Option Provider) (appUrl : t.appUrl = t'.appUrl) (domain : t.domain = t'.domain) :
    store.consumer t service provider = store.consumer t' service provider := by
  simp only [consumer, appUrl, domain]

/-- Whether redirections are followed makes no difference to what is signed. -/
theorem Request.signWith_congr {r t : Request} {c : Credentials} {extra : Pairs} {p : Placement}
    {stamp : Stamp} (method : r.method = t.method) (url : r.url = t.url)
    (headers : r.headers = t.headers) (body : r.body = t.body) :
    r.signWith c extra p stamp = t.signWith c extra p stamp := by
  cases r
  cases t
  obtain rfl : _ = _ := method
  obtain rfl : _ = _ := url
  obtain rfl : _ = _ := headers
  obtain rfl : _ = _ := body
  rfl

namespace Call

variable {c d : Call} {p q : Progress} {a b : Accessor}

/-- A call gets its resource under a key, with the accessor that is built from what it has. The
parts of the key can be measured, and who is known has a name. -/
structure FetchesUnder (c : Call) (p : Progress) (a : Accessor) (key : String) : Prop where
  built : Accessor.build p.store (c.arguments p) c.token c.services p.state = .ok a
  keyed : c.cacheKey a p.cache = some key
  short : (c.cacheIdentity a).Short c.request
  named : (c.cacheIdentity a).Named

/-- What two calls have to agree in, beside the key, to sign the same: what they find, and the
fields of their arguments, identities and states which a signature depends on and the key does not
tell. -/
structure AgreeBeyondKey (c d : Call) (p q : Progress) : Prop where
  store : p.store = q.store
  services : c.services = d.services
  headers : c.request.headers = d.request.headers
  kind : c.args.kind = d.args.kind
  domain : c.token.domain = d.token.domain
  appId : c.token.appId = d.token.appId
  moduleId : c.token.moduleId = d.token.moduleId
  signViewer : c.args.signViewer = d.args.signViewer
  tokenUse : c.args.tokenUse = d.args.tokenUse
  requestToken : (c.arguments p).requestToken = (d.arguments q).requestToken
  requestTokenSecret : (c.arguments p).requestTokenSecret = (d.arguments q).requestTokenSecret
  carried : Accessor.carriedToken p.state = Accessor.carriedToken q.state

/-- Two calls sign the same for the resource, but for what a stamp makes fresh. -/
structure SignsAlike (c : Call) (a : Accessor) (d : Call) (b : Accessor) : Prop where
  method : c.request.method = d.request.method
  url : c.request.url.render = d.request.url.render
  headers : c.request.headers = d.request.headers
  body : c.request.body = d.request.body
  placement : a.placement = b.placement
  added : ∀ stamp, c.request.addedPairs a.credentials (c.identityPairs a) stamp =
    d.request.addedPairs b.credentials (d.identityPairs b) stamp
  signed : c.request.url = d.request.url → ∀ stamp,
    c.request.signWith a.credentials (c.identityPairs a) a.placement stamp =
      d.request.signWith b.credentials (d.identityPairs b) b.placement stamp

theorem cacheKey_eq_some {cache : Option Cache} {key : String} (h : c.cacheKey a cache = some key) :
    (c.cacheIdentity a).key c.request = key := by
  cases cache with
  | none => cases h
  | some cache =>
    rw [cacheKey] at h
    split at h
    · exact Option.some.inj h
    · cases h

/-- The viewer of a call that uses a stored token is the viewer of each call with its identity. -/
theorem viewer_eq_of_hasAccessToken (same : c.cacheIdentity a = d.cacheIdentity b)
    (known : c.token.viewer.isSome = true) (access : a.hasAccessToken = true) :
    c.token.viewer = d.token.viewer := by
  obtain ⟨viewer, known⟩ := Option.isSome_iff_exists.1 known
  have told := congrArg CacheIdentity.viewer same
  simp only [cacheIdentity, known, access, Bool.or_true, Option.filter_some, if_true] at told
  rw [known, (Option.filter_eq_some_iff.1 told.symm).1]

/-- Calls that have one identity and agree in the rest are bound to one token. -/
theorem bound_eq (agree : AgreeBeyondKey c d p q) (same : c.cacheIdentity a = d.cacheIdentity b)
    (chosen : Accessor.Chosen p.store (c.arguments p) c.token p.state a.token)
    (chosen' : Accessor.Chosen q.store (d.arguments q) d.token q.state b.token) :
    a.token = b.token := by
  obtain ⟨service, tokenName, -⟩ := c.arguments_eq p
  obtain ⟨service', tokenName', -⟩ := d.arguments_eq q
  have use : (c.arguments p).tokenUse = (d.arguments q).tokenUse := by
    rw [arguments_tokenUse, arguments_tokenUse, agree.tokenUse]
  refine (agree.store ▸ chosen).unique chosen' use agree.requestToken agree.requestTokenSecret
    agree.carried fun info stored => ?_
  -- Only stored tokens are looked up by viewer. Of a call that has one, the key tells the viewer,
  -- signed or not.
  have viewer : c.token.viewer = d.token.viewer := by
    rcases stored with ⟨bound, held⟩ | ⟨bound, held⟩
    · refine viewer_eq_of_hasAccessToken same (Accessor.viewer_isSome_of_stored held) ?_
      rw [Accessor.hasAccessToken_eq, bound]
      rfl
    · refine (viewer_eq_of_hasAccessToken same.symm (Accessor.viewer_isSome_of_stored held) ?_).symm
      rw [Accessor.hasAccessToken_eq, bound]
      rfl
  simp only [cacheIdentity, CacheIdentity.mk.injEq] at same
  obtain ⟨appUrl, services, tokenNames, -⟩ := same
  rw [service, tokenName, service', tokenName']
  simp only [Store.token?, TokenKey.of, viewer, appUrl, services, tokenNames, agree.moduleId]

/-- Calls that have one identity and agree in the rest have one consumer, token and placement. -/
theorem built_eq (agree : AgreeBeyondKey c d p q) (same : c.cacheIdentity a = d.cacheIdentity b)
    (built : Accessor.build p.store (c.arguments p) c.token c.services p.state = .ok a)
    (built' : Accessor.build q.store (d.arguments q) d.token d.services q.state = .ok b) :
    a.consumer = b.consumer ∧ a.token = b.token ∧ a.placement = b.placement := by
  have appUrl : c.token.appUrl = d.token.appUrl := congrArg CacheIdentity.appUrl same
  have kind := c.arguments_kind p
  have kind' := d.arguments_kind q
  rw [← agree.kind] at kind'
  cases which : c.args.kind with
  | signed =>
    obtain ⟨found, unbound, query⟩ := Accessor.build_signed (kind.trans which) built
    obtain ⟨found', unbound', query'⟩ := Accessor.build_signed (kind'.trans which) built'
    rw [agree.store, Store.consumer_congr _ _ _ appUrl agree.domain, found'] at found
    exact ⟨(Except.ok.inj found).symm, unbound.trans unbound'.symm, query.trans query'.symm⟩
  | delegated =>
    obtain ⟨provider, declared, found, -, placement, chosen⟩ :=
      Accessor.build_delegated (kind.trans which) built
    obtain ⟨provider', declared', found', -, placement', chosen'⟩ :=
      Accessor.build_delegated (kind'.trans which) built'
    have service : (c.arguments p).service = (d.arguments q).service := by
      rw [(c.arguments_eq p).1, (d.arguments_eq q).1]
      exact congrArg CacheIdentity.service same
    rw [agree.services, service, declared'] at declared
    obtain rfl := Except.ok.inj declared
    rw [agree.store, service, Store.consumer_congr _ _ _ appUrl agree.domain, found'] at found
    exact ⟨(Except.ok.inj found).symm, bound_eq agree same chosen chosen',
      placement.trans placement'.symm⟩

/-- What is signed about the identity is told by key and consumer, where both calls sign the viewer
or both do not. -/
theorem identityPairs_eq (agree : AgreeBeyondKey c d p q)
    (same : c.cacheIdentity a = d.cacheIdentity b) (consumer : a.consumer = b.consumer) :
    c.identityPairs a = d.identityPairs b := by
  simp only [cacheIdentity, CacheIdentity.mk.injEq, agree.signViewer] at same
  obtain ⟨appUrl, -, -, owner, viewer⟩ := same
  have signed : c.token.viewer.filter (fun _ => d.args.signViewer) =
      d.token.viewer.filter fun _ => d.args.signViewer := by
    cases told : d.args.signViewer with
    | true => simpa [told] using viewer
    | false => cases c.token.viewer <;> cases d.token.viewer <;> rfl
  simp only [identityPairs, owner, agree.signViewer, signed, agree.kind, agree.appId, appUrl,
    consumer]

theorem SignsAlike.token_eq (h : SignsAlike c a d b) : a.token.token? = b.token.token? := by
  obtain ⟨-, foreign⟩ := extraFit_of_names (c.names_of_identityPairs a)
  obtain ⟨-, foreign'⟩ := extraFit_of_names (d.names_of_identityPairs b)
  have tokens := congrArg tokensIn (h.added ⟨0, ""⟩)
  rw [Request.tokensIn_addedPairs foreign, Request.tokensIn_addedPairs foreign'] at tokens
  have same := congrArg List.head? tokens
  rwa [Option.head?_toList, Option.head?_toList, a.token_credentials, b.token_credentials] at same

/-- Calls that have one key sign the same for the resource if they agree in the rest, and if the
digest has no collision at the two keys. -/
theorem signsAlike_of_cacheKey {key : String} (h : c.FetchesUnder p a key)
    (h' : d.FetchesUnder q b key) (agree : AgreeBeyondKey c d p q)
    (digest : Sha256.hash ((c.cacheIdentity a).preimage c.request) =
        Sha256.hash ((d.cacheIdentity b).preimage d.request) →
      (c.cacheIdentity a).preimage c.request = (d.cacheIdentity b).preimage d.request) :
    SignsAlike c a d b := by
  obtain ⟨same, method, url, body⟩ := CacheIdentity.eq_of_key_eq h.short h'.short h.named h'.named
    digest ((cacheKey_eq_some h.keyed).trans (cacheKey_eq_some h'.keyed).symm)
  obtain ⟨consumer, token, placement⟩ := built_eq agree same h.built h'.built
  have credentials : a.credentials = b.credentials := by
    simp only [Accessor.credentials_eq, consumer, token]
  have identity := identityPairs_eq agree same consumer
  have form : c.request.isForm = d.request.isForm := by
    simp only [Request.isForm, Request.contentType?, agree.headers]
  refine ⟨method, url, agree.headers, body, placement, fun stamp => ?_, fun own stamp => ?_⟩
  · simp only [Request.addedPairs, credentials, identity, body, form]
  · rw [credentials, identity, placement]
    exact Request.signWith_congr method own agree.headers body

/-- What the photo gadget's instances find where results are cached: each has a token of its own. -/
def instancesStart : Surroundings := { photoStart with
  store := { photoStore with
    tokens := (Table.empty.insert ⟨"gadget", "photos", "ann", 1, ""⟩
      ⟨"first", "hidden", none, none⟩).insert ⟨"gadget", "photos", "ann", 2, ""⟩
        ⟨"second", "hidden", none, none⟩ }
  cache := some { ttl := 1000, capacity := 10 } }

/-- The call of one instance of the photo gadget. -/
def instanceCall (moduleId : UInt64) : Call :=
  let call := photoCall fun _ => found
  { call with token := { call.token with moduleId } }

/-- The consumer of the photo gadget with a token of its viewer. -/
def instanceAccessor (token : String) : Accessor :=
  (Accessor.consumerOnly ⟨"key", .hmac "secret", none, none⟩ .get .authHeader).setAccessToken
    ⟨token, "hidden", none, none⟩ .store

/-- The key of the first instance. -/
def instanceKey : String :=
  ((instanceCall 1).cacheIdentity (instanceAccessor "first")).key (instanceCall 1).request

theorem fetchesUnder_first :
    (instanceCall 1).FetchesUnder ((instanceCall 1).begun instancesStart)
      (instanceAccessor "first") instanceKey :=
  ⟨by decide +kernel, rfl, by decide +kernel, by decide⟩

/-- The call of the first instance, made by a caller that was called back. -/
def returningCall : Call :=
  let call := instanceCall 1
  { call with args := { call.args with receivedCallback := some "https://gadget.example/back" } }

/-- What a caller was told by a callback is not signed for the resource. -/
theorem signsAlike_of_cacheKey_returning :
    SignsAlike (instanceCall 1) (instanceAccessor "first") returningCall
      (instanceAccessor "first") := by
  have returning : returningCall.FetchesUnder (returningCall.begun instancesStart)
      (instanceAccessor "first") instanceKey :=
    ⟨by decide +kernel, rfl, by decide +kernel, by decide⟩
  have agree : AgreeBeyondKey (instanceCall 1) returningCall ((instanceCall 1).begun instancesStart)
      (returningCall.begun instancesStart) := by
    constructor <;> rfl
  exact signsAlike_of_cacheKey fetchesUnder_first returning agree fun _ => rfl

/-- Two instances of one gadget get one key for the same photos, and not for a collision of digests,
although each of them signs with its own token. -/
theorem one_key_two_tokens :
    (instanceCall 1).FetchesUnder ((instanceCall 1).begun instancesStart)
        (instanceAccessor "first") instanceKey ∧
      (instanceCall 2).FetchesUnder ((instanceCall 2).begun instancesStart)
        (instanceAccessor "second") instanceKey ∧
      ((instanceCall 1).cacheIdentity (instanceAccessor "first")).preimage
          (instanceCall 1).request =
        ((instanceCall 2).cacheIdentity (instanceAccessor "second")).preimage
          (instanceCall 2).request ∧
      ¬ SignsAlike (instanceCall 1) (instanceAccessor "first") (instanceCall 2)
        (instanceAccessor "second") := by
  refine ⟨fetchesUnder_first, ⟨by decide +kernel, rfl, by decide +kernel, by decide⟩, rfl,
    fun alike => ?_⟩
  exact absurd alike.token_eq (by decide)

end Call
end DelegatedFetch
