import DelegatedFetch.Fetch.Call

/-!
# The dance for tokens

Three exchanges move a call from one token to the next: a request token is
got, and its owner sent to approve it; an approved request token is traded for
an access token; a session is extended to a new access token. New access
tokens are kept in one place only, and a token that is not good any more is
forgotten in both.
-/

namespace DelegatedFetch.Call

open Step

/-- Keeps a new access token, and tells where. -/
def persist (c : Call) (info : TokenInfo) : Step TokenSource := do
  match c.policy.persistence with
  | .server =>
    let store ← ofExcept ((← get).store.setToken c.token c.args.service c.args.tokenName info)
    modify fun p => { p with store }
    modifyState .clearAccessToken
    return .store
  | .client =>
    modifyState (·.setAccessToken info)
    return .clientState

/-- Forgets the viewer's access token in the store and in the caller's state. -/
def discardToken (c : Call) : Step Unit := do
  if c.token.viewer.isSome then
    let store ← ofExcept ((← get).store.removeToken c.token c.args.service c.args.tokenName)
    modify fun p => { p with store }
  modifyState .clearAccessToken

def forgetRequestToken (a : Accessor) : Step Unit := do
  if a.source = .arguments then
    modify fun p => { p with argumentTokenSpent := true }
  modifyState .clearRequestToken

/-- Gets a request token, and with it the address of the page where the owner approves. -/
def requestApproval (c : Call) (a : Accessor) : Step Unit := do
  unless c.token.viewerIsOwner do throw (.refused .approvalByOther)
  let provider ← c.provider
  let callback := a.consumer.callback.map fun url => (Parameter.callback, url)
  let response ← c.exchange .requestToken ⟨provider.request.url, a.method, a.placement⟩
    a.consumer.credentials callback.toList
  let reply ← ofExcept (response.tokenReply Purpose.requestToken.label)
  let (token, secret) ← ofExcept (tokenPair reply Purpose.requestToken.label)
  modifyState fun s =>
    { s.clearAccessToken with
      requestToken := some token, requestTokenSecret := some secret
      callback := a.consumer.callback }
  let confirmed := reply.first? Parameter.callbackConfirmed = some "true"
  let pairs := (Parameter.token, token) :: if confirmed then [] else callback.toList
  modify fun p => { p with approvalUrl := some (provider.authorization.appendQuery pairs) }

def exchangeRequestToken (c : Call) (a : Accessor) : Step Accessor := do
  unless c.token.viewerIsOwner do throw (.refused .completionByOther)
  let provider ← c.provider
  let response ← c.exchange .accessToken provider.access a.credentials
    (c.args.verifier.map fun v => (Parameter.verifier, v)).toList
  let reply ← ofExcept (response.tokenReply Purpose.accessToken.label)
  let info ← ofExcept (tokenInfo reply Purpose.accessToken.label (← now))
  forgetRequestToken a
  return a.setAccessToken info (← c.persist info)

/-- Gets a new access token for a session; the handle stays if the provider names no other. -/
def extendSession (c : Call) (a : Accessor) (handle : String) : Step Accessor := do
  let provider ← c.provider
  let response ← c.exchange .extension provider.access a.credentials
    [(Parameter.sessionHandle, handle)]
  let reply ← ofExcept (response.tokenReply Purpose.extension.label)
  let info ← ofExcept (tokenInfo reply Purpose.extension.label (← now))
  let info := { info with sessionHandle := info.sessionHandle <|> some handle }
  return a.setAccessToken info (← c.persist info)

end DelegatedFetch.Call
