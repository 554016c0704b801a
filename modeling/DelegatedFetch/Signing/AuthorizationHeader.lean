import DelegatedFetch.Text.Blank
import DelegatedFetch.Text.Form

/-!
# The authorization header

Parameters in a header are `name="value"`, escaped and joined by commas,
after the name of the scheme. Reading is lenient: any letter case of the
scheme, blanks around parts, quotes left out. The parameter `realm` names no
part of the protocol and is dropped.
-/

namespace DelegatedFetch.AuthorizationHeader

/-- The scheme and the space after it, in lower case. -/
def scheme : List Char := "oauth ".toList

def renderPair (p : String × String) : String :=
  Percent.encode p.1 ++ "=\"" ++ Percent.encode p.2 ++ "\""

def render (ps : Pairs) : String := "OAuth " ++ String.intercalate ", " (ps.map renderPair)

/-- The parameter that one part writes; none without an equals sign. -/
def parsePart? (part : List Char) : Option (String × String) :=
  (cut? (· == '=') (strip isBlank part)).map fun (name, value) =>
    (Percent.decode (String.ofList (strip isBlank name)),
     Percent.decode (String.ofList (strip (· == '"') (strip isBlank value))))

/-- The parameters of a header; none if the scheme is another. -/
def parse (header : String) : Pairs :=
  let cs := header.toList
  if (cs.take scheme.length).map Char.toLower = scheme then
    ((pieces (· == ',') (cs.drop scheme.length)).filterMap parsePart?).filter (·.1 != "realm")
  else []

end DelegatedFetch.AuthorizationHeader
