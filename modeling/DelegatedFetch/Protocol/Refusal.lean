import DelegatedFetch.Http.Method
import DelegatedFetch.Protocol.Problem
import DelegatedFetch.Url.Basic
import DelegatedFetch.Url.Error

/-!
# Refusals

A refusal ends a fetch in an orderly way: the caller gets its code and its
wording as metadata of a response. Each way to be refused is a cause of its
own; its kind gives the code, and one function words them all. No cause holds
a token secret or a session handle.
-/

namespace DelegatedFetch

/-- The kinds of refusals, each with a stable code. -/
inductive RefusalKind where
  | badConfiguration
  | unauthenticated
  | notOwner
  | invalidRequest
  | unknownProblem
  | provider (problem : Problem)
  deriving DecidableEq, Repr

def RefusalKind.code : RefusalKind → String
  | badConfiguration => "BAD_OAUTH_CONFIGURATION"
  | unauthenticated => "UNAUTHENTICATED"
  | notOwner => "NOT_OWNER"
  | invalidRequest => "INVALID_REQUEST"
  | unknownProblem => "UNKNOWN_PROBLEM"
  | provider p => p.code

/-- Why a fetch is refused. -/
inductive Refusal where
  | unknownEndpointMethod (word : String)
  | unknownPlacement (word : String)
  | invalidEndpointUrl (text : String) (cause : UrlError)
  /-- An endpoint declares a method that token calls do not use. -/
  | unsupportedEndpointMethod (url : Url) (method : Method)
  | bodyPlacementOnGet (url : Url)
  | invalidAuthorizationUrl (text : String) (cause : UrlError)
  /-- The service is declared for the later protocol. -/
  | laterProtocol (service : String)
  | undeclaredService (service : String) (known : List String)
  /-- Nobody registered a consumer for gadget and service. -/
  | noConsumer (gadget service : String) (requestUrl : Option Url)
  | storageNeedsViewer
  | ownerUnknown
  | viewerUnknown
  | tokenNeedsViewer
  /-- Somebody else than the page owner would have to approve. -/
  | approvalByOther
  /-- Somebody else than the page owner would complete an approval. -/
  | completionByOther
  | reservedInQuery (name : String)
  | reservedInBody (name : String)
  | unknownTokenUse (word : String)
  | bodyNotForm
  | keyTooSmall
  /-- A request to verify has no protocol parameters. -/
  | noProtocolParameters
  /-- A request to verify has protocol parameters in several places. -/
  | severalPlacements
  | noSignature
  | severalSignatures
  | bodyHashMismatch
  | signatureNotBase64
  | signatureMismatch
  | resourceProblem (status : Nat) (problem : Problem) (advice : Option String)
  /-- The resource answered that the token is not good, without a problem. -/
  | tokenNotAccepted
  | endpointRedirect (endpoint : String) (status : Nat) (location : Option String)
  | endpointProblem (endpoint : String) (status : Nat) (problem : Problem)
      (advice : Option String)
  /-- A token endpoint answered without success and without a problem. -/
  | endpointStatus (endpoint : String) (status : Nat)
  | replyWithoutToken (endpoint : String)
  /-- A refusal in words of somebody else. -/
  | stated (kind : RefusalKind) (message : String)
  deriving DecidableEq, Repr

namespace Refusal

def kind : Refusal → RefusalKind
  | unknownEndpointMethod _ | unknownPlacement _ | invalidEndpointUrl _ _
  | unsupportedEndpointMethod _ _ | bodyPlacementOnGet _ | invalidAuthorizationUrl _ _
  | laterProtocol _ | undeclaredService _ _ | noConsumer _ _ _ => .badConfiguration
  | storageNeedsViewer | ownerUnknown | viewerUnknown | tokenNeedsViewer => .unauthenticated
  | approvalByOther | completionByOther => .notOwner
  | reservedInQuery _ | reservedInBody _ | unknownTokenUse _ | bodyNotForm => .invalidRequest
  | keyTooSmall | tokenNotAccepted | endpointRedirect _ _ _ | endpointStatus _ _
  | replyWithoutToken _ => .unknownProblem
  | noProtocolParameters | noSignature => .provider (.other "parameter_absent")
  | severalPlacements | severalSignatures => .provider .parameterRejected
  | bodyHashMismatch | signatureNotBase64 | signatureMismatch =>
    .provider (.other "signature_invalid")
  | resourceProblem _ p _ | endpointProblem _ _ p _ => .provider p
  | stated k _ => k

def code (r : Refusal) : String := r.kind.code

def problem? (r : Refusal) : Option Problem :=
  match r.kind with
  | .provider p => some p
  | _ => none

/-- Advice in brackets, after a space. -/
def bracketed (advice : Option String) : String :=
  match advice with
  | some a => " (" ++ a ++ ")"
  | none => ""

def message : Refusal → String
  | unknownEndpointMethod m => "Unknown OAuth method '" ++ m ++ "'"
  | unknownPlacement l => "Unknown OAuth parameter location '" ++ l ++ "'"
  | invalidEndpointUrl text e => "Invalid OAuth endpoint URL '" ++ text ++ "': " ++ e.message
  | unsupportedEndpointMethod url m =>
    "OAuth endpoint " ++ url.render ++ " declares unsupported method " ++ m.name
  | bodyPlacementOnGet url =>
    "OAuth endpoint " ++ url.render ++ " declares post-body parameters with GET"
  | invalidAuthorizationUrl text e => "Invalid authorization URL '" ++ text ++ "': " ++ e.message
  | laterProtocol s =>
    "Service '" ++ s ++ "' is declared as OAuth2 and cannot be used for OAuth 1.0a fetches"
  | undeclaredService s known =>
    "Gadget does not declare OAuth service '" ++ s ++ "'. Known services: " ++
      String.intercalate "," known
  | noConsumer g s url =>
    "No consumer key for gadget " ++ g ++ " and service '" ++ s ++ "'" ++
      (url.map fun u => " (request token URL " ++ u.render ++ ")").getD ""
  | storageNeedsViewer => "Token storage requires a viewer id"
  | ownerUnknown => "Signing the owner id requires an owner"
  | viewerUnknown => "Signing the viewer id requires a viewer"
  | tokenNeedsViewer => "An access token requires a known viewer"
  | approvalByOther => "Only the page owner can approve access to this service"
  | completionByOther => "Only the page owner can complete approval"
  | reservedInQuery n => "Parameter '" ++ n ++ "' in the query string uses a reserved prefix"
  | reservedInBody n => "Parameter '" ++ n ++ "' in the request body uses a reserved prefix"
  | unknownTokenUse w => "Unknown OAUTH_USE_TOKEN value '" ++ w ++ "'"
  | bodyNotForm => "OAuth parameters can only be placed in a form-encoded request body"
  | keyTooSmall => "RSA signing failed: message too long"
  | noProtocolParameters => "No OAuth parameters in request"
  | severalPlacements => "OAuth parameters appear in more than one location"
  | noSignature => "Missing oauth_signature"
  | severalSignatures => "Duplicate oauth_signature"
  | bodyHashMismatch => "oauth_body_hash does not match body"
  | signatureNotBase64 => "oauth_signature is not base64"
  | signatureMismatch => "Signature does not match"
  | resourceProblem status p advice =>
    "Service provider returned " ++ toString status ++ " with oauth_problem=" ++ p.code ++
      bracketed advice
  | tokenNotAccepted => "Service provider rejected the access token with 401"
  | endpointRedirect e status location =>
    "The " ++ e ++ " endpoint answered " ++ toString status ++ " redirecting to " ++
      location.getD "an unknown location" ++ "; signed requests are not redirected"
  | endpointProblem e status _ advice =>
    "The " ++ e ++ " endpoint returned " ++ toString status ++ bracketed advice
  | endpointStatus e status => "The " ++ e ++ " endpoint returned " ++ toString status
  | replyWithoutToken e =>
    "The " ++ e ++ " response is missing oauth_token or oauth_token_secret"
  | stated _ m => m

def render (r : Refusal) : String := r.code ++ ": " ++ r.message

end Refusal
end DelegatedFetch
