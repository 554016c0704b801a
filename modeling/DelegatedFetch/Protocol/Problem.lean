import DelegatedFetch.Text.Blank

/-!
# Problems that providers report

Providers name what is wrong by a code. Six codes are known here; any other
is passed on as it is. An expired or a revoked token is a failure of the token
alone: the fetch can go on without it.
-/

namespace DelegatedFetch

/-- What a provider says is wrong. -/
inductive Problem where
  | tokenExpired
  | tokenRevoked
  | tokenRejected
  | consumerKeyUnknown
  | consumerKeyRefused
  | parameterRejected
  | other (code : String)
  deriving DecidableEq, Repr

namespace Problem

def code : Problem → String
  | tokenExpired => "token_expired"
  | tokenRevoked => "token_revoked"
  | tokenRejected => "token_rejected"
  | consumerKeyUnknown => "consumer_key_unknown"
  | consumerKeyRefused => "consumer_key_refused"
  | parameterRejected => "parameter_rejected"
  | other code => code

def known : List Problem :=
  [tokenExpired, tokenRevoked, tokenRejected, consumerKeyUnknown, consumerKeyRefused,
   parameterRejected]

/-- The problem of a code, blanks around it aside. -/
def parse (s : String) : Problem :=
  let code := trim s
  (known.find? (·.code == code)).getD (other code)

/-- The token alone failed: it expired or was revoked. -/
def isTokenFailure : Problem → Bool
  | tokenExpired | tokenRevoked => true
  | _ => false

def isOther : Problem → Bool
  | other _ => true
  | _ => false

end Problem
end DelegatedFetch
