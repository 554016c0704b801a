import DelegatedFetch.Text.Hex
import DelegatedFetch.Text.Split
import DelegatedFetch.Text.Decimal

/-!
# Network addresses in host names

An IPv4 address has up to four numbers, each decimal, octal after `0` or
hexadecimal after `0x`; the last one fills all remaining bytes. An IPv6
address has eight groups, of which one run may be left out as `::` and the
last two may be written as an IPv4 address. Both are written in one form.
-/

namespace DelegatedFetch

namespace Ipv4

def digitBelow? (base : Nat) (c : Char) : Option Nat :=
  match Hex.charValue? c with
  | some v => if v.toNat < base then some v.toNat else none
  | none => none

/-- The number that digits of a base write; no digits write zero. -/
def numeral? (base : Nat) (cs : List Char) : Option Nat :=
  cs.foldl (fun n c => do some ((← n) * base + (← digitBelow? base c))) (some 0)

/-- One number of an address, in the base that its first characters tell. -/
def number? : List Char → Option Nat
  | [] => none
  | '0' :: 'x' :: ds | '0' :: 'X' :: ds => numeral? 16 ds
  | '0' :: d :: ds => numeral? 8 (d :: ds)
  | ds => numeral? 10 ds

/-- A host name is an IPv4 address, or fails as one, when its last label is a number. A single
dot at the end does not count. -/
def endsInNumber (host : List Char) : Bool :=
  let last := match (pieces (· == '.') host).reverse with
    | [] :: l :: _ => l
    | l :: _ => l
    | [] => []
  (!last.isEmpty && last.all Char.isDigit) || (number? last).isSome

def ofNumbers? (ns : List Nat) : Option UInt32 :=
  match ns.reverse with
  | [] => none
  | last :: front =>
    if front.all (· ≤ 255) ∧ last < Nat.pow 256 (4 - front.length) then
      some (UInt32.ofNat
        (front.reverse.foldl (fun n x => n * 256 + x) 0 * Nat.pow 256 (4 - front.length) + last))
    else none

def parse? (host : List Char) : Option UInt32 := do
  let labels := pieces (· == '.') host
  let labels := if labels.getLast? = some [] then labels.dropLast else labels
  if labels.length > 4 then none
  else ofNumbers? (← labels.mapM number?)

def render (a : UInt32) : String :=
  String.intercalate "." ((Bytes.ofNat 4 a.toNat).map fun b => toString b.toNat)

end Ipv4

namespace Ipv6

/-- One group of an address: one to four hexadecimal digits. -/
def group? (cs : List Char) : Option Nat :=
  if 1 ≤ cs.length ∧ cs.length ≤ 4 then Ipv4.numeral? 16 cs else none

/-- One byte of an embedded IPv4 address: decimal, without needless zeros. -/
def octet? (cs : List Char) : Option Nat := do
  let n ← Decimal.digits? cs
  if n ≤ 255 ∧ (cs.length = 1 ∨ cs.head? ≠ some '0') then some n else none

/-- The two groups that an embedded IPv4 address stands for. -/
def embedded? (cs : List Char) : Option (List Nat) := do
  match ← (pieces (· == '.') cs).mapM octet? with
  | [a, b, c, d] => some [a * 256 + b, c * 256 + d]
  | _ => none

/-- The groups of a part without `::`, at whose end an IPv4 address may stand. -/
def groups? (ipv4AtEnd : Bool) (cs : List Char) : Option (List Nat) :=
  if cs.isEmpty then some []
  else do
    let texts := pieces (· == ':') cs
    let front ← texts.dropLast.mapM group?
    let last := texts.getLast?.getD []
    let tail ← if ipv4AtEnd && last.contains '.' then embedded? last
      else (group? last).map fun g => [g]
    some (front ++ tail)

def cutGap? : List Char → Option (List Char × List Char)
  | ':' :: ':' :: rest => some ([], rest)
  | c :: rest => (cutGap? rest).map fun (a, b) => (c :: a, b)
  | [] => none

def parse? (cs : List Char) : Option (List Nat) :=
  match cutGap? cs with
  | some (before, after) => do
    let front ← groups? false before
    let back ← groups? true after
    let n := front.length + back.length
    if n ≤ 7 then some (front ++ List.replicate (8 - n) 0 ++ back) else none
  | none => do
    let all ← groups? true cs
    if all.length = 8 then some all else none

def hexGroup (n : Nat) : List Char := Nat.toDigits 16 n

def zeroRun (gs : List Nat) : Nat := (gs.takeWhile (· == 0)).length

/-- Where the first of the longest runs of zeros starts and how long it is. -/
def longestRun (gs : List Nat) : Nat × Nat :=
  (List.range gs.length).foldl
    (fun (best : Nat × Nat) i =>
      let n := zeroRun (gs.drop i)
      if n > best.2 then (i, n) else best) (0, 0)

def joinGroups (gs : List Nat) : List Char := List.intercalate [':'] (gs.map hexGroup)

/-- The groups in hexadecimal, the first longest run of two or more zeros left out. -/
def render (gs : List Nat) : String :=
  let (start, n) := longestRun gs
  String.ofList <|
    if n < 2 then joinGroups gs
    else joinGroups (gs.take start) ++ ':' :: ':' :: joinGroups (gs.drop (start + n))

end Ipv6
end DelegatedFetch
