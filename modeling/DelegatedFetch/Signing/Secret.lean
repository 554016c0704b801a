import DelegatedFetch.Crypto.Digest
import DelegatedFetch.Crypto.KeyDocument
import DelegatedFetch.Signing.BaseString

/-!
# Secrets and signatures

A consumer signs with a secret that it shares with the provider, together
with the secret of the token, or with a private key alone. A signature is
written in base64. Exactly one text verifies for each shared secret: the one
that signing makes.
-/

namespace DelegatedFetch

inductive SignatureMethod where
  | hmacSha1
  | rsaSha1
  deriving DecidableEq, Repr

def SignatureMethod.word : SignatureMethod → String
  | hmacSha1 => "HMAC-SHA1"
  | rsaSha1 => "RSA-SHA1"

/-- What a consumer signs with. -/
inductive ConsumerSecret where
  | hmac (secret : String)
  | rsa (key : Rsa.PrivateKey)
  deriving DecidableEq, Repr

def ConsumerSecret.method : ConsumerSecret → SignatureMethod
  | hmac _ => .hmacSha1
  | rsa _ => .rsaSha1

def ConsumerSecret.publicKey? : ConsumerSecret → Option Rsa.PublicKey
  | hmac _ => none
  | rsa k => some k.toPublic

/-- Who signs: a consumer, and a token if one is used. -/
structure Credentials where
  consumerKey : String
  secret : ConsumerSecret
  token : Option String
  tokenSecret : Option String
  deriving DecidableEq, Repr

inductive VerificationKey where
  | hmac (consumerSecret tokenSecret : String)
  | rsa (key : Rsa.PublicKey)
  deriving DecidableEq, Repr

namespace Signature

def sharedKey (consumerSecret tokenSecret : String) : Bytes :=
  Utf8.encode (Percent.encode consumerSecret ++ "&" ++ Percent.encode tokenSecret)

def sharedDigest (consumerSecret tokenSecret text : String) : Bytes :=
  Digest.sha1.hmac (sharedKey consumerSecret tokenSecret) (Utf8.encode text)

/-- The signature of a text. A private key may be too small for one. -/
def compute (c : Credentials) (text : String) : Except Refusal String :=
  match c.secret with
  | .hmac secret =>
    .ok (Base64.encode Base64.standard (sharedDigest secret (c.tokenSecret.getD "") text))
  | .rsa key =>
    match key.sign? (Sha1.hash (Utf8.encode text)) with
    | some s => .ok (Base64.encode Base64.standard s)
    | none => .error .keyTooSmall

def matches? (key : VerificationKey) (text : String) (signature : Bytes) : Bool :=
  match key with
  | .hmac consumerSecret tokenSecret => signature == sharedDigest consumerSecret tokenSecret text
  | .rsa key => key.verify (Sha1.hash (Utf8.encode text)) signature

/-- The digest that stands for a body that is no form. -/
def bodyHash (body : Bytes) : String := Base64.encode Base64.standard (Sha1.hash body)

end Signature
end DelegatedFetch
