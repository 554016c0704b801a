import DelegatedFetch.Clock
import DelegatedFetch.Http.Message
import DelegatedFetch.Protocol.Refusal
import DelegatedFetch.Signing.AuthorizationHeader
import DelegatedFetch.Signing.Parameter
import DelegatedFetch.Token.TokenInfo

/-!
# Reading the replies of providers

A provider reports a problem in a `WWW-Authenticate` header or in a form body.
From the resource, a problem ends the fetch, or is one of the token, which can
be mended. From a token endpoint, a token with its secret is wanted, and
neither redirections nor failures are accepted.
-/

namespace DelegatedFetch

/-- A problem with what the provider says about it. -/
structure ProblemReport where
  problem : Problem
  advice : Option String
  deriving DecidableEq, Repr

/-- A resource that was not delivered: the refusal that it means, whether a new token may mend it,
and whether the token has just expired. -/
structure ResourceFailure where
  refusal : Refusal
  recoverable : Bool
  expired : Bool
  deriving DecidableEq, Repr

namespace Response

/-- The pairs in which a problem is looked for: those of the header if they name one, else those of
the body. -/
def problemPairs (r : Response) : Pairs :=
  let header := ((r.headers.first? "WWW-Authenticate").map AuthorizationHeader.parse).getD []
  if (header.first? Parameter.problem).isSome then header else Form.parse r.body

def problem? (r : Response) : Option ProblemReport :=
  match (r.problemPairs.first? Parameter.problem).filter (· != "") with
  | some code => some ⟨Problem.parse code, r.problemPairs.first? Parameter.problemAdvice⟩
  | none => none

/-- What a response of the resource means for the token that was used. A failure without a problem
is the caller's own matter, unless the token was not accepted. -/
def resourceFailure? (r : Response) (usedAccessToken : Bool) : Option ResourceFailure :=
  if r.isSuccess then none
  else
    match r.problem? with
    | some p => some {
        refusal := .resourceProblem r.status p.problem p.advice
        recoverable := usedAccessToken && p.problem.isTokenFailure
        expired := p.problem == .tokenExpired }
    | none =>
      if r.status = 401 && usedAccessToken then some ⟨.tokenNotAccepted, true, false⟩ else none

def tokenReply (r : Response) (endpoint : String) : Except Refusal Pairs :=
  if r.isRedirect then .error (.endpointRedirect endpoint r.status (r.headers.first? "Location"))
  else if r.isSuccess then .ok (Form.parse r.body)
  else
    match r.problem? with
    | some p => .error (.endpointProblem endpoint r.status p.problem p.advice)
    | none => .error (.endpointStatus endpoint r.status)

end Response

def tokenPair (reply : Pairs) (endpoint : String) : Except Refusal (String × String) :=
  match reply.first? Parameter.token, reply.first? Parameter.tokenSecret with
  | some token, some secret =>
    if token = "" then .error (.replyWithoutToken endpoint) else .ok (token, secret)
  | _, _ => .error (.replyWithoutToken endpoint)

/-- The time at which a token expires that is good for the seconds in a reply. -/
def expiryOf (reply : Pairs) (now : UInt64) : Option UInt64 := do
  let seconds ← Decimal.parse? (trim (← reply.first? Parameter.expiresIn))
  return Decimal.satAdd now (Decimal.satMul seconds 1000)

def tokenInfo (reply : Pairs) (endpoint : String) (now : UInt64) : Except Refusal TokenInfo := do
  let (token, secret) ← tokenPair reply endpoint
  return ⟨token, secret, reply.first? Parameter.sessionHandle, expiryOf reply now⟩

end DelegatedFetch
