import DelegatedFetch.Crypto.Digest
import DelegatedFetch.Http.Message
import DelegatedFetch.Text.Hex

/-!
# Cached results

Identical fetches for the same identity are answered from memory for a short
time. A result is kept under the digest of the request and of the identity it
is signed for, each part with its length, so that two identities never share
a result. Ages are measured by the steady clock; a negative age counts as
zero.
-/

namespace DelegatedFetch

/-- What makes two signed fetches of one request interchangeable. -/
structure CacheIdentity where
  appUrl : String
  service : String
  tokenName : String
  owner : Option String
  viewer : Option String
  deriving DecidableEq, Repr

/-- A part with its length in eight bytes before it. -/
def measured (part : Bytes) : Bytes := Bytes.ofNat 8 part.length ++ part

namespace CacheIdentity

def parts (i : CacheIdentity) (r : Request) : List Bytes :=
  [Utf8.encode r.method.name, Utf8.encode r.url.render, r.body, Utf8.encode i.appUrl,
    Utf8.encode i.service, Utf8.encode i.tokenName, Utf8.encode (i.owner.getD ""),
    Utf8.encode (i.viewer.getD "")]

def key (i : CacheIdentity) (r : Request) : String :=
  Hex.encode (Sha256.hash ((i.parts r).flatMap measured))

end CacheIdentity

structure CachedResponse where
  response : Response
  keptAt : Int

/-- How often a cache had an answer and had none, how many expired entries it has removed, and how
many it holds. -/
structure CacheStats where
  hits : UInt64
  misses : UInt64
  evictions : UInt64
  size : Nat
  deriving DecidableEq, Repr

/-- Results that are kept for `ttl` milliseconds, at most `capacity` of them. -/
structure Cache where
  ttl : Nat
  capacity : Nat
  entries : Table String CachedResponse := .empty
  hits : UInt64 := 0
  misses : UInt64 := 0
  evictions : UInt64 := 0

namespace Cache

def isEnabled (c : Cache) : Bool := c.ttl != 0 && c.capacity != 0

def isFresh (c : Cache) (now : Int) (e : CachedResponse) : Bool := (now - e.keptAt).toNat ≤ c.ttl

/-- Looks a result up. An expired entry is removed, and counts as missing. -/
def get (c : Cache) (key : String) (now : Int) : Option Response × Cache :=
  match c.entries.find? key with
  | none => (none, { c with misses := c.misses + 1 })
  | some e =>
    if c.isFresh now e then (some e.response, { c with hits := c.hits + 1 })
    else
      (none, { c with
        entries := c.entries.erase key, evictions := c.evictions + 1, misses := c.misses + 1 })

def evictExpired (c : Cache) (now : Int) : Cache :=
  let fresh := c.entries.filter fun _ e => c.isFresh now e
  { c with
    entries := fresh, evictions := c.evictions + UInt64.ofNat (c.entries.size - fresh.size) }

/-- The cache with room made, if it is full, for one more entry. -/
def makeRoom (c : Cache) (now : Int) : Cache :=
  if c.entries.size < c.capacity then c else c.evictExpired now

/-- Keeps a result that is a success. A cache that is full of fresh entries drops it. -/
def set (c : Cache) (key : String) (response : Response) (now : Int) : Cache :=
  if c.isEnabled && response.isSuccess then
    let c := c.makeRoom now
    if c.entries.size < c.capacity then
      { c with entries := c.entries.insert key ⟨response, now⟩ }
    else c
  else c

def stats (c : Cache) : CacheStats := ⟨c.hits, c.misses, c.evictions, c.entries.size⟩

end Cache
end DelegatedFetch
