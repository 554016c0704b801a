/-!
# Punycode

Labels with characters beyond ASCII are written with ASCII alone: the ASCII
characters first, then the others as steps in the order of their values.
Each step is a number in a mixed base of 36 digits whose thresholds follow a
bias that adapts to the steps before. Reading undoes this and refuses what
does not name characters.
-/

namespace DelegatedFetch.Punycode

/-- The digit of a value below thirty-six: letters, then figures. -/
def digit (d : Nat) : Char := if d < 26 then Char.ofNat (97 + d) else Char.ofNat (22 + d)

def digitValue? (c : Char) : Option Nat :=
  if 'a' ≤ c ∧ c ≤ 'z' then some (c.toNat - 97)
  else if 'A' ≤ c ∧ c ≤ 'Z' then some (c.toNat - 65)
  else if '0' ≤ c ∧ c ≤ '9' then some (c.toNat - 22)
  else none

def threshold (k bias : Nat) : Nat := max 1 (min 26 (k - bias))

def scale (delta k : Nat) : Nat × Nat :=
  if _h : 455 < delta then scale (delta / 35) (k + 36) else (delta, k)
termination_by delta
decreasing_by omega

/-- The bias after a step among `count` characters. -/
def adapt (delta count : Nat) (first : Bool) : Nat :=
  let delta := if first then delta / 700 else delta / 2
  let (delta, k) := scale (delta + delta / count) 0
  k + 36 * delta / (delta + 38)

/-- The digits of a step from place `k` on. -/
def stepDigits (q k bias : Nat) : List Char :=
  let t := threshold k bias
  if _h : q < t then [digit q]
  else digit (t + (q - t) % (36 - t)) :: stepDigits ((q - t) / (36 - t)) (k + 36) bias
termination_by q
decreasing_by
  have ht : 1 ≤ threshold k bias := by unfold threshold; omega
  have hle := Nat.div_le_self (q - threshold k bias) (36 - threshold k bias)
  simp only [t] at _h ⊢
  omega

/-- The state of writing: the steps so far, the pending step, the bias, the characters written. -/
structure Writer where
  digits : List Char
  delta : Nat
  bias : Nat
  count : Nat

def writeValue (label : List Char) (n basic : Nat) (w : Writer) : Writer :=
  label.foldl (fun w c =>
    if c.toNat < n then { w with delta := w.delta + 1 }
    else if c.toNat = n then
      { digits := w.digits ++ stepDigits w.delta 36 w.bias
        delta := 0
        bias := adapt w.delta (w.count + 1) (w.count == basic)
        count := w.count + 1 }
    else w) w

def values (label : List Char) : List Nat :=
  ((label.map Char.toNat).filter (128 ≤ ·)).mergeSort.eraseDups

def encode (label : List Char) : List Char :=
  let basic := label.filter (·.toNat < 128)
  let start : Writer := ⟨[], 0, 72, basic.length⟩
  let (w, _) := (values label).foldl
    (fun ((w, next) : Writer × Nat) n =>
      let w := writeValue label n basic.length
        { w with delta := w.delta + (n - next) * (w.count + 1) }
      ({ w with delta := w.delta + 1 }, n + 1)) (start, 128)
  (if basic.isEmpty then [] else basic ++ ['-']) ++ w.digits

/-- Reads one step: its value, and what stands after it. -/
def readStep? (bias : Nat) : Nat → Nat → Nat → List Char → Option (Nat × List Char)
  | _, _, _, [] => none
  | k, weight, i, c :: rest => do
    let d ← digitValue? c
    let i := i + d * weight
    let t := threshold k bias
    if d < t then some (i, rest) else readStep? bias (k + 36) (weight * (36 - t)) i rest

def insertAt (out : List Char) (i : Nat) (c : Char) : List Char := out.take i ++ c :: out.drop i

def readSteps? : Nat → List Char → Nat → Nat → Nat → List Char → Option (List Char)
  | _, out, _, _, _, [] => some out
  | 0, _, _, _, _, _ :: _ => none
  | fuel + 1, out, n, i, bias, rest => do
    let (j, rest) ← readStep? bias 36 1 i rest
    let count := out.length + 1
    let n := n + j / count
    if n ≤ 0x10FFFF ∧ ¬ (0xD800 ≤ n ∧ n ≤ 0xDFFF) then
      readSteps? fuel (insertAt out (j % count) (Char.ofNat n)) n (j % count + 1)
        (adapt (j - i) count (i == 0)) rest
    else none

/-- The ASCII characters before the last hyphen, and the steps after it. -/
def splitLabel (label : List Char) : List Char × List Char :=
  match label.reverse.span (· ≠ '-') with
  | (_, []) | (_, [_]) => ([], label)
  | (steps, _ :: basic) => (basic.reverse, steps.reverse)

def decode? (label : List Char) : Option (List Char) :=
  let (basic, steps) := splitLabel label
  readSteps? steps.length basic 128 0 72 steps

end DelegatedFetch.Punycode
