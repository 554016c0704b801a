import DelegatedFetch.Text.Split
import DelegatedFetch.Url.Letters
import DelegatedFetch.Url.Punycode

/-!
# Domain names in ASCII

A domain name is compared in lower case and in ASCII. Its letters are brought
to their one form first; labels that then hold characters beyond ASCII are
written in punycode behind `xn--`. A label that comes in punycode has to name
letters in that form already. A name that holds a character no domain may have
is refused.
-/

namespace DelegatedFetch.Domain

def isForbidden (c : Char) : Bool :=
  c.toNat ≤ 0x20 || c.toNat == 0x7F || "#%/:<>?@[\\]^|".contains c

/-- A label in its one form: no character that cannot be written, and no accent in front. -/
def isLabel (label : List Char) : Bool :=
  !label.any isUnwritable && !(label.head?.any isAccent)

/-- The label that an ASCII form behind `xn--` names, which has to need that form. -/
def readLabel? (code : List Char) : Option (List Char) :=
  (Punycode.decode? code).filter fun label =>
    !label.all (·.toNat < 128) && isLabel label && foldName label == label

def labelToAscii? (label : List Char) : Option (List Char) :=
  if label.all (·.toNat < 128) then
    if "xn--".toList.isPrefixOf label then (readLabel? (label.drop 4)).map fun _ => label
    else some label
  else if isLabel label then some ("xn--".toList ++ Punycode.encode label)
  else none

def toAscii? (name : List Char) : Option (List Char) := do
  let labels ← (pieces (· == '.') (foldName name)).mapM labelToAscii?
  let ascii := List.intercalate ['.'] labels
  if ascii.any isForbidden then none else some ascii

end DelegatedFetch.Domain
