import DelegatedFetch.Bytes

/-!
# The block cipher AES-256

A block is sixteen bytes, column by column. The substitution is the inverse
in the field of 256 elements followed by an affine map; its table is computed
from that rule. Only the forward direction is here, as counter mode needs no
other.
-/

namespace DelegatedFetch.Aes

/-- Twice a field element, reduced by x⁸ + x⁴ + x³ + x + 1. -/
def double (b : UInt8) : UInt8 := if b < 0x80 then b <<< 1 else (b <<< 1) ^^^ 0x1B

/-- The product of field elements, by the bits of the second. -/
def mulBits : Nat → UInt8 → UInt8 → UInt8
  | 0, _, _ => 0
  | n + 1, a, b => (if b &&& 1 = 1 then a else 0) ^^^ mulBits n (double a) (b >>> 1)

def mul (a b : UInt8) : UInt8 := mulBits 8 a b

/-- The inverse of a field element, its 254th power; zero for zero. -/
def inverse (a : UInt8) : UInt8 :=
  let square := fun x => mul x x
  let a2 := square a
  let a4 := square a2
  let a8 := square a4
  let a16 := square a8
  let a32 := square a16
  let a64 := square a32
  mul (square a64) (mul a64 (mul a32 (mul a16 (mul a8 (mul a4 a2)))))

def rotl (b n : UInt8) : UInt8 := (b <<< n) ||| (b >>> (8 - n))

/-- The substitution of one byte, by its rule. -/
def substitute (b : UInt8) : UInt8 :=
  let i := inverse b
  i ^^^ rotl i 1 ^^^ rotl i 2 ^^^ rotl i 3 ^^^ rotl i 4 ^^^ 0x63

def table : Array UInt8 := (Array.range 256).map fun n => substitute (UInt8.ofNat n)

def subByte (b : UInt8) : UInt8 := table.getD b.toNat 0

def shiftRows (block : Bytes) : Bytes :=
  [0, 5, 10, 15, 4, 9, 14, 3, 8, 13, 2, 7, 12, 1, 6, 11].map fun i => block.getD i 0

def mixColumn : Bytes → Bytes
  | [a, b, c, d] =>
    let all := a ^^^ b ^^^ c ^^^ d
    [a ^^^ all ^^^ double (a ^^^ b), b ^^^ all ^^^ double (b ^^^ c),
     c ^^^ all ^^^ double (c ^^^ d), d ^^^ all ^^^ double (d ^^^ a)]
  | column => column

def mixColumns (block : Bytes) : Bytes := (blocks 4 block).flatMap mixColumn

/-- The words of the key schedule, last first, after `n` more of them. `i` counts the words. -/
def expand : Nat → Nat → UInt8 → List Bytes → List Bytes
  | 0, _, _, ws => ws
  | n + 1, i, round, ws =>
    let last := ws.headD []
    let (term, round) :=
      if i % 8 = 0 then
        (Bytes.mask ((last.drop 1 ++ last.take 1).map subByte) [round, 0, 0, 0], double round)
      else if i % 8 = 4 then (last.map subByte, round)
      else (last, round)
    expand n (i + 1) round (Bytes.mask (ws.getD 7 []) term :: ws)

/-- The fifteen round keys of a key of thirty-two bytes. -/
def roundKeys (key : Bytes) : List Bytes :=
  blocks 16 ((expand 52 8 1 (blocks 4 key).reverse).reverse.flatten)

def round (block roundKey : Bytes) : Bytes :=
  Bytes.mask (mixColumns (shiftRows (block.map subByte))) roundKey

def encryptBlock (keys : List Bytes) (block : Bytes) : Bytes :=
  match keys with
  | [] => block
  | first :: rest =>
    let inner := rest.dropLast.foldl round (Bytes.mask block first)
    Bytes.mask (shiftRows (inner.map subByte)) (rest.getLast?.getD [])

end DelegatedFetch.Aes
