import DelegatedFetch.Http.Message

/-!
# Where protocol parameters go

Protocol parameters travel in the authorization header, in the query or in a
form body. A body can take them if it is a form, or empty, and the method is
not GET.
-/

namespace DelegatedFetch

/-- Where the protocol parameters of a request are. -/
inductive Placement where
  | authHeader
  | uriQuery
  | postBody
  deriving DecidableEq, Repr

namespace Placement

def word : Placement → String
  | authHeader => "auth-header"
  | uriQuery => "uri-query"
  | postBody => "post-body"

def all : List Placement := [authHeader, uriQuery, postBody]

/-- The placement of a word, blanks around it aside. -/
def parse? (s : String) : Option Placement := all.find? (·.word == trim s)

/-- A request can take protocol parameters at a placement. -/
def fits (p : Placement) (r : Request) : Bool :=
  match p with
  | postBody => r.method != .get && (r.body.isEmpty || r.isForm)
  | _ => true

end Placement
end DelegatedFetch
