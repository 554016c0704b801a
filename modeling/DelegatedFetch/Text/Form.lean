import DelegatedFetch.Text.Percent
import DelegatedFetch.Text.Split

/-!
# Form encoding

Name and value pairs written as `name=value` and joined by `&`, in queries
and in request bodies. A space is written `+`; letters, digits and `*-._`
stand for themselves. Reading drops empty segments and takes a segment
without `=` as a name with an empty value. `parse` also drops pairs without
a name, which `parseQuery` keeps.
-/

namespace DelegatedFetch

/-- Name and value pairs in order; a name may occur more than once. -/
abbrev Pairs := List (String × String)

namespace Pairs

def first? (ps : Pairs) (name : String) : Option String := (ps.find? (·.1 == name)).map (·.2)

end Pairs

namespace Form

/-- The bytes that stand for themselves in a form: letters, digits and `*-._`. -/
def isKept (b : UInt8) : Bool :=
  Percent.isAlphanumeric b || b == 0x2A || b == 0x2D || b == 0x2E || b == 0x5F

/-- One byte in a form: a space is `+`. -/
def encodeByte (b : UInt8) : List Char :=
  if b = 0x20 then ['+'] else if isKept b then [Char.ofNat b.toNat] else Percent.escape b

def encodeText (s : String) : List Char := (Utf8.encode s).flatMap encodeByte

def encodePair (p : String × String) : List Char := encodeText p.1 ++ '=' :: encodeText p.2

def encode (ps : Pairs) : String :=
  String.ofList (List.intercalate ['&'] (ps.map encodePair))

def decodeText (b : Bytes) : String :=
  Utf8.decodeLossy (Percent.decodeBytes (b.map fun x => if x = 0x2B then 0x20 else x))

def decodePair (segment : Bytes) : String × String :=
  let (name, value) := cut (· == 0x3D) segment
  (decodeText name, decodeText value)

/-- The pairs of a form, empty segments left out. -/
def parseQuery (b : Bytes) : Pairs :=
  ((pieces (· == 0x26) b).filter (!·.isEmpty)).map decodePair

/-- The pairs of a form that have a name. -/
def parse (b : Bytes) : Pairs := (parseQuery b).filter (·.1 != "")

end Form
end DelegatedFetch
