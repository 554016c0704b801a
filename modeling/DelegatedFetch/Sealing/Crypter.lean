import DelegatedFetch.Clock
import DelegatedFetch.Crypto.Aes
import DelegatedFetch.Crypto.Digest
import DelegatedFetch.Crypto.Gcm
import DelegatedFetch.Failure
import DelegatedFetch.Text.Base64

/-!
# Sealed blobs

A crypter seals bytes into a text that may travel in a URL, and opens what it
has sealed. The key is derived from key material of at least sixteen bytes and
a label; the label is also authenticated, so a blob sealed for one purpose
does not open for another.
-/

namespace DelegatedFetch

/-- Key material with a label that names its purpose. -/
structure Crypter where
  material : Bytes
  label : String
  long_enough : 16 ≤ material.length
  deriving DecidableEq

namespace Crypter

def of (material : Bytes) (label : String) : Except Failure Crypter :=
  if h : 16 ≤ material.length then .ok ⟨material, label, h⟩ else .error (.shortKey material.length)

def key (c : Crypter) : Bytes :=
  Sha256.hash (Utf8.encode ("gadget-oauth:" ++ c.label ++ ":") ++ c.material)

def cipher (c : Crypter) : Bytes → Bytes := Aes.encryptBlock (Aes.roundKeys c.key)

def nonceLength : Nat := 12

def tagLength : Nat := 16

def sealWith (c : Crypter) (nonce plain : Bytes) : String :=
  Base64.encode Base64.url (nonce ++ Gcm.encrypt c.cipher nonce (Utf8.encode c.label) plain)

def sealFresh (c : Crypter) (plain : Bytes) (entropy : Entropy) : String × Entropy :=
  let (nonce, entropy) := entropy.draw nonceLength
  (c.sealWith nonce plain, entropy)

/-- The bytes of a blob, blanks around it aside. -/
def openBlob (c : Crypter) (blob : String) : Except SealError Bytes :=
  match Base64.decode? Base64.url (trim blob) with
  | none => .error .badEncoding
  | some raw =>
    if raw.length < nonceLength + tagLength then .error .tooShort
    else
      match Gcm.decrypt? c.cipher (raw.take nonceLength) (Utf8.encode c.label)
          (raw.drop nonceLength) with
      | some plain => .ok plain
      | none => .error .notAuthentic

/-- Fresh key material of 32 bytes, as a text. -/
def freshMaterial (entropy : Entropy) : String × Entropy :=
  let (bytes, entropy) := entropy.draw 32
  (Base64.encode Base64.url bytes, entropy)

end Crypter
end DelegatedFetch
