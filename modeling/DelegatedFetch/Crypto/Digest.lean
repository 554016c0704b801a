import DelegatedFetch.Bytes

/-!
# Digests SHA-1 and SHA-256

Both digests pad a message to blocks of 64 bytes (a bit, zeros, the length in
bits) and fold the blocks into a chaining value of 32-bit words. They differ
in the words, in the message schedule and in the round.
-/

namespace DelegatedFetch

/-- A digest function with the length of its blocks. -/
structure Digest where
  blockSize : Nat
  digest : Bytes → Bytes

namespace Sha

/-- The message with its padding: a multiple of 64 bytes. -/
def pad (message : Bytes) : Bytes :=
  let zeros := (119 - message.length % 64) % 64
  message ++ 0x80 :: List.replicate zeros 0 ++ Bytes.ofNat 8 (message.length * 8)

def word : Bytes → UInt32
  | [a, b, c, d] =>
    (a.toUInt32 <<< 24) ||| (b.toUInt32 <<< 16) ||| (c.toUInt32 <<< 8) ||| d.toUInt32
  | _ => 0

def words (block : Bytes) : List UInt32 := (blocks 4 block).map word

def wordBytes (ws : List UInt32) : Bytes := ws.flatMap fun w => Bytes.ofNat 4 w.toNat

def rotl (w : UInt32) (n : UInt32) : UInt32 := (w <<< n) ||| (w >>> (32 - n))

def rotr (w : UInt32) (n : UInt32) : UInt32 := (w >>> n) ||| (w <<< (32 - n))

/-- A schedule extended to more words. The words are kept last first, and each new one is computed
from them. -/
def extend (next : List UInt32 → UInt32) : Nat → List UInt32 → List UInt32
  | 0, ws => ws
  | n + 1, ws => extend next n (next ws :: ws)

def at0 (ws : List UInt32) (i : Nat) : UInt32 := ws.getD i 0

end Sha

namespace Sha1

open Sha

/-- The chaining value. -/
structure State where
  a : UInt32
  b : UInt32
  c : UInt32
  d : UInt32
  e : UInt32

def start : State := ⟨0x67452301, 0xEFCDAB89, 0x98BADCFE, 0x10325476, 0xC3D2E1F0⟩

def schedule (block : Bytes) : List UInt32 :=
  (extend (fun ws => rotl (at0 ws 2 ^^^ at0 ws 7 ^^^ at0 ws 13 ^^^ at0 ws 15) 1) 64
    (words block).reverse).reverse

/-- The function and the constant of a round. -/
def roundTerm (s : State) (i : Nat) : UInt32 :=
  if i < 20 then ((s.b &&& s.c) ||| (~~~s.b &&& s.d)) + 0x5A827999
  else if i < 40 then (s.b ^^^ s.c ^^^ s.d) + 0x6ED9EBA1
  else if i < 60 then ((s.b &&& s.c) ||| (s.b &&& s.d) ||| (s.c &&& s.d)) + 0x8F1BBCDC
  else (s.b ^^^ s.c ^^^ s.d) + 0xCA62C1D6

def round (s : State) (wi : UInt32 × Nat) : State :=
  ⟨rotl s.a 5 + roundTerm s wi.2 + s.e + wi.1, s.a, rotl s.b 30, s.c, s.d⟩

def compress (s : State) (block : Bytes) : State :=
  let r := (schedule block).zipIdx.foldl round s
  ⟨s.a + r.a, s.b + r.b, s.c + r.c, s.d + r.d, s.e + r.e⟩

/-- The digest of a message, twenty bytes. -/
def hash (message : Bytes) : Bytes :=
  let s := (blocks 64 (pad message)).foldl compress start
  wordBytes [s.a, s.b, s.c, s.d, s.e]

end Sha1

namespace Sha256

open Sha

structure State where
  a : UInt32
  b : UInt32
  c : UInt32
  d : UInt32
  e : UInt32
  f : UInt32
  g : UInt32
  h : UInt32

def start : State :=
  ⟨0x6A09E667, 0xBB67AE85, 0x3C6EF372, 0xA54FF53A, 0x510E527F, 0x9B05688C, 0x1F83D9AB, 0x5BE0CD19⟩

def constants : List UInt32 :=
  [0x428A2F98, 0x71374491, 0xB5C0FBCF, 0xE9B5DBA5, 0x3956C25B, 0x59F111F1, 0x923F82A4, 0xAB1C5ED5,
   0xD807AA98, 0x12835B01, 0x243185BE, 0x550C7DC3, 0x72BE5D74, 0x80DEB1FE, 0x9BDC06A7, 0xC19BF174,
   0xE49B69C1, 0xEFBE4786, 0x0FC19DC6, 0x240CA1CC, 0x2DE92C6F, 0x4A7484AA, 0x5CB0A9DC, 0x76F988DA,
   0x983E5152, 0xA831C66D, 0xB00327C8, 0xBF597FC7, 0xC6E00BF3, 0xD5A79147, 0x06CA6351, 0x14292967,
   0x27B70A85, 0x2E1B2138, 0x4D2C6DFC, 0x53380D13, 0x650A7354, 0x766A0ABB, 0x81C2C92E, 0x92722C85,
   0xA2BFE8A1, 0xA81A664B, 0xC24B8B70, 0xC76C51A3, 0xD192E819, 0xD6990624, 0xF40E3585, 0x106AA070,
   0x19A4C116, 0x1E376C08, 0x2748774C, 0x34B0BCB5, 0x391C0CB3, 0x4ED8AA4A, 0x5B9CCA4F, 0x682E6FF3,
   0x748F82EE, 0x78A5636F, 0x84C87814, 0x8CC70208, 0x90BEFFFA, 0xA4506CEB, 0xBEF9A3F7, 0xC67178F2]

def schedule (block : Bytes) : List UInt32 :=
  let small0 := fun x : UInt32 => rotr x 7 ^^^ rotr x 18 ^^^ (x >>> 3)
  let small1 := fun x : UInt32 => rotr x 17 ^^^ rotr x 19 ^^^ (x >>> 10)
  (extend (fun ws => small1 (at0 ws 1) + at0 ws 6 + small0 (at0 ws 14) + at0 ws 15) 48
    (words block).reverse).reverse

def round (s : State) (kw : UInt32 × UInt32) : State :=
  let big1 := rotr s.e 6 ^^^ rotr s.e 11 ^^^ rotr s.e 25
  let choice := (s.e &&& s.f) ^^^ (~~~s.e &&& s.g)
  let t1 := s.h + big1 + choice + kw.1 + kw.2
  let big0 := rotr s.a 2 ^^^ rotr s.a 13 ^^^ rotr s.a 22
  let majority := (s.a &&& s.b) ^^^ (s.a &&& s.c) ^^^ (s.b &&& s.c)
  ⟨t1 + (big0 + majority), s.a, s.b, s.c, s.d + t1, s.e, s.f, s.g⟩

def compress (s : State) (block : Bytes) : State :=
  let r := (constants.zip (schedule block)).foldl round s
  ⟨s.a + r.a, s.b + r.b, s.c + r.c, s.d + r.d, s.e + r.e, s.f + r.f, s.g + r.g, s.h + r.h⟩

/-- The digest of a message, thirty-two bytes. -/
def hash (message : Bytes) : Bytes :=
  let s := (blocks 64 (pad message)).foldl compress start
  wordBytes [s.a, s.b, s.c, s.d, s.e, s.f, s.g, s.h]

end Sha256

namespace Digest

def sha1 : Digest := ⟨64, Sha1.hash⟩

/-- A key of exactly one block: a long key is digested first, a short one is filled with zeros. -/
def blockKey (d : Digest) (key : Bytes) : Bytes :=
  let key := if key.length > d.blockSize then d.digest key else key
  key ++ List.replicate (d.blockSize - key.length) 0

def hmac (d : Digest) (key message : Bytes) : Bytes :=
  let k := d.blockKey key
  d.digest (k.map (· ^^^ 0x5C) ++ d.digest (k.map (· ^^^ 0x36) ++ message))

end Digest

theorem Sha1.length_hash (message : Bytes) : (Sha1.hash message).length = 20 := by
  simp [Sha1.hash, Sha.wordBytes]

end DelegatedFetch
