import DelegatedFetch.Fetch.Call

/-!
# The resource

The caller's own request is signed with what the accessor binds and with what
is told about owner, viewer and gadget. A result may come from the cache, if
the same request was answered for the same identity a short time ago.
-/

namespace DelegatedFetch.Call

open Step

/-- Who the result of a fetch is for, as far as it matters. -/
def cacheIdentity (c : Call) (a : Accessor) : CacheIdentity where
  appUrl := c.token.appUrl
  service := c.args.service
  tokenName := c.args.tokenName
  owner := c.token.owner.filter fun _ => c.args.signOwner
  viewer := c.token.viewer.filter fun _ => c.args.signViewer || a.hasAccessToken

/-- The key under which the result is cached, if results are cached at all and this one may be. -/
def cacheKey (c : Call) (a : Accessor) (cache : Option Cache) : Option String :=
  match cache with
  | some cache =>
    if cache.isEnabled && !c.args.bypassCache && c.request.method == .get then
      some ((c.cacheIdentity a).key c.request)
    else none
  | none => none

/-- What is signed about the identity: owner and viewer if wanted, and for a signed fetch the gadget
and the name of the public key. -/
def identityPairs (c : Call) (a : Accessor) : Pairs :=
  ((c.token.owner.filter fun _ => c.args.signOwner).map fun o => (Parameter.ownerId, o)).toList ++
    ((c.token.viewer.filter fun _ => c.args.signViewer).map fun v =>
      (Parameter.viewerId, v)).toList ++
    match c.args.kind with
    | .delegated => []
    | .signed =>
      [(Parameter.appId, c.token.appId), (Parameter.appUrl, c.token.appUrl)] ++
        match a.consumer.secret, a.consumer.keyName with
        | .rsa _, some name =>
          [(Parameter.publicKeyFirst, name), (Parameter.publicKeySecond, name)]
        | _, _ => []

def cached? (key : Option String) : Step (Option Response) := do
  let p ← get
  match key, p.cache with
  | some key, some cache =>
    let (hit, cache) := cache.get key p.clock.steady
    set { p with cache := some cache }
    return hit
  | _, _ => return none

def keep (key : Option String) (response : Response) : Step Unit :=
  modify fun p =>
    match key with
    | some key => { p with cache := p.cache.map fun c => c.set key response p.clock.steady }
    | none => p

/-- Gets the resource, from the cache or signed from its host. -/
def fetchResource (c : Call) (a : Accessor) : Step Response := do
  let key := c.cacheKey a (← get).cache
  if let some hit ← cached? key then return hit
  let signed ← sign c.request a.credentials (c.identityPairs a) a.placement
  let response ← c.send .resource signed
  keep key response
  return response

end DelegatedFetch.Call
