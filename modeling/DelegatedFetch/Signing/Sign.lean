import DelegatedFetch.Clock
import DelegatedFetch.Signing.AuthorizationHeader
import DelegatedFetch.Signing.Placement
import DelegatedFetch.Signing.Secret

/-!
# Signing requests

Signing collects the parameters of a request, adds the protocol's own, signs
all of them and puts the added ones at the placement that the service wants.
The header carries the names that begin with `oauth_` only; other added
parameters then go to the query. A signed request is never to be redirected.
-/

namespace DelegatedFetch

/-- What makes a signature fresh: the second it is made in, and random text. -/
structure Stamp where
  timestamp : Nat
  nonce : String
  deriving DecidableEq, Repr

/-- A fresh stamp: sixteen random bytes as lower-case digits. -/
def Stamp.fresh (clock : Clock) (entropy : Entropy) : Stamp × Entropy :=
  let (bytes, entropy) := entropy.draw 16
  (⟨clock.seconds, Hex.encode bytes⟩, entropy)

namespace Request

/-- The caller's parameters that are signed: those of the query and of a form body. -/
def ownPairs (r : Request) : Pairs := r.url.queryPairs ++ r.formPairs

/-- The parameters that signing adds before the signature: the extra ones first. -/
def addedPairs (r : Request) (c : Credentials) (extra : Pairs) (stamp : Stamp) : Pairs :=
  extra ++ [(Parameter.consumerKey, c.consumerKey)] ++
    (c.token.map fun t => (Parameter.token, t)).toList ++
    [(Parameter.signatureMethod, c.secret.method.word),
     (Parameter.timestamp, toString stamp.timestamp),
     (Parameter.nonce, stamp.nonce),
     (Parameter.version, "1.0")] ++
    if !r.body.isEmpty && !r.isForm then [(Parameter.bodyHash, Signature.bodyHash r.body)] else []

def place (r : Request) (ps : Pairs) : Placement → Request
  | .authHeader =>
    let query := ps.filter (!Parameter.isProtocol ·.1)
    let r := if query.isEmpty then r else { r with url := r.url.appendQuery query }
    r.setHeader "Authorization" (AuthorizationHeader.render (ps.filter (Parameter.isProtocol ·.1)))
  | .uriQuery => { r with url := r.url.appendQuery ps }
  | .postBody =>
    let form := Utf8.encode (Form.encode ps)
    let signed := { r with body := if r.body.isEmpty then form else r.body ++ 0x26 :: form }
    if signed.isForm then signed else signed.setHeader "Content-Type" formContentType

def baseString (r : Request) (added : Pairs) : String :=
  BaseString.render r.method r.url (r.ownPairs ++ added)

/-- The signed request under a stamp, for a placement that fits. -/
def signWith (r : Request) (c : Credentials) (extra : Pairs) (p : Placement) (stamp : Stamp) :
    Except Refusal Request := do
  let added := r.addedPairs c extra stamp
  let signature ← Signature.compute c (r.baseString added)
  return { r with followRedirects := false }.place (added ++ [(Parameter.signature, signature)]) p

/-- The signed request under a fresh stamp. A placement that does not fit is refused before any
random byte is drawn. -/
def sign (r : Request) (c : Credentials) (extra : Pairs) (p : Placement) (clock : Clock)
    (entropy : Entropy) : Except Refusal Request × Entropy :=
  if p.fits r then
    let (stamp, entropy) := Stamp.fresh clock entropy
    (r.signWith c extra p stamp, entropy)
  else (.error .bodyNotForm, entropy)

end Request
end DelegatedFetch
