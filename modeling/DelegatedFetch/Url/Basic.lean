import DelegatedFetch.Text.Form
import DelegatedFetch.Url.Address

/-!
# URLs

An absolute URL in parts, each part as it is written: percent escapes are
kept. `render` joins the parts. The query is also a list of pairs; pairs are
read from it and appended to it, and appending leaves all other parts alone.
-/

namespace DelegatedFetch

/-- The host of a URL. An opaque name of a scheme unknown here is a `domain`, too. -/
inductive Host where
  | empty
  | domain (name : String)
  | ipv4 (address : UInt32)
  | ipv6 (groups : List Nat)
  deriving DecidableEq, Repr

def Host.render : Host → String
  | .empty => ""
  | .domain name => name
  | .ipv4 a => Ipv4.render a
  | .ipv6 gs => "[" ++ Ipv6.render gs ++ "]"

/-- An absolute URL. A host is absent when nothing stands after the scheme's colon but a path; a
port is absent when it is the scheme's own. -/
structure Url where
  scheme : String
  username : String
  password : String
  host : Option Host
  port : Option Nat
  path : String
  query : Option String
  fragment : Option String
  deriving DecidableEq, Repr

namespace Url

def hostText (u : Url) : String := (u.host.map Host.render).getD ""

def renderUser (u : Url) : String :=
  if u.username = "" ∧ u.password = "" then ""
  else if u.password = "" then u.username ++ "@"
  else u.username ++ ":" ++ u.password ++ "@"

/-- What stands between the scheme and the path. Without a host, a path must not look like one. -/
def renderAuthority (u : Url) : String :=
  match u.host with
  | some h =>
    "//" ++ u.renderUser ++ h.render ++ (u.port.map fun p => ":" ++ toString p).getD ""
  | none => if u.path.startsWith "//" then "/." else ""

def render (u : Url) : String :=
  u.scheme ++ ":" ++ u.renderAuthority ++ u.path ++
    (u.query.map ("?" ++ ·)).getD "" ++ (u.fragment.map ("#" ++ ·)).getD ""

/-- The pairs of the query, those without a name included. -/
def queryPairs (u : Url) : Pairs := Form.parseQuery (Utf8.encode (u.query.getD ""))

def extendQuery (query : Option String) (ps : Pairs) : String :=
  ps.foldl (fun q p =>
    (if q = "" then q else q ++ "&") ++ String.ofList (Form.encodePair p)) (query.getD "")

/-- The URL with pairs appended to its query. A query is there afterwards, empty or not. -/
def appendQuery (u : Url) (ps : Pairs) : Url := { u with query := some (extendQuery u.query ps) }

end Url
end DelegatedFetch
