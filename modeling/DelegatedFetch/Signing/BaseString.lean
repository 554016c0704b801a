import DelegatedFetch.Signing.Parameter

/-!
# The text that is signed

Method, address and parameters of a request in one canonical text. The
address is the URL without user, query and fragment, its host in lower case.
The parameters are escaped, sorted by name and then value, and joined; the
signature itself is never among them.
-/

namespace DelegatedFetch.BaseString

/-- The address of a URL: scheme, host, port and path. -/
def address (u : Url) : String :=
  u.scheme ++ "://" ++ u.hostText.toLower ++ (u.port.map fun p => ":" ++ toString p).getD "" ++
    u.path

/-- Pairs are ordered by name and then by value. -/
def pairLE (a b : String × String) : Bool := a.1 < b.1 || (a.1 == b.1 && a.2 ≤ b.2)

def escapePair (p : String × String) : String × String :=
  (Percent.encode p.1, Percent.encode p.2)

/-- The parameters that are signed: all but the signature. -/
def signedPairs (ps : Pairs) : Pairs := ps.filter (·.1 != Parameter.signature)

def normalize (ps : Pairs) : String :=
  String.intercalate "&"
    ((((signedPairs ps).map escapePair).mergeSort pairLE).map fun p => p.1 ++ "=" ++ p.2)

def render (method : Method) (url : Url) (ps : Pairs) : String :=
  method.name ++ "&" ++ Percent.encode (address url) ++ "&" ++ Percent.encode (normalize ps)

end DelegatedFetch.BaseString
