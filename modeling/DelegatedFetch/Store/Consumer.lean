import DelegatedFetch.Failure
import DelegatedFetch.Signing.Secret

/-!
# Consumers

A consumer is what a container is to a provider: a key, a secret to sign with,
the name of the public key if the provider wants it told, and where the
provider sends viewers back to.
-/

namespace DelegatedFetch

/-- How the secret of a consumer is read. -/
inductive KeyType where
  | hmacSymmetric
  | rsaPrivate
  deriving DecidableEq, Repr

namespace KeyType

def word : KeyType → String
  | hmacSymmetric => "HMAC_SYMMETRIC"
  | rsaPrivate => "RSA_PRIVATE"

def name : KeyType → String
  | hmacSymmetric => "HmacSymmetric"
  | rsaPrivate => "RsaPrivate"

def all : List KeyType := [hmacSymmetric, rsaPrivate]

end KeyType

/-- A registration with a provider. An empty key stands for the domain of the container. -/
structure Consumer where
  key : String
  secret : ConsumerSecret
  keyName : Option String
  callback : Option String
  deriving DecidableEq, Repr

namespace Consumer

def keyType (c : Consumer) : KeyType :=
  match c.secret with
  | .hmac _ => .hmacSymmetric
  | .rsa _ => .rsaPrivate

/-- The credentials of a consumer alone. -/
def credentials (c : Consumer) : Credentials := ⟨c.key, c.secret, none, none⟩

end Consumer

def ConsumerSecret.ofText (type : KeyType) (text : String) :
    Except KeyDocument.Error ConsumerSecret :=
  match type with
  | .hmacSymmetric => .ok (.hmac text)
  | .rsaPrivate => (KeyDocument.ofText text).map .rsa

end DelegatedFetch
