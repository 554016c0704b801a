import DelegatedFetch.Signing.AuthorizationHeader
import DelegatedFetch.Signing.Placement
import DelegatedFetch.Signing.Secret

/-!
# Verifying requests

A verifier reads all parameters of a request. The protocol's own must be in
one place, with one signature among them, and the body must have the digest
that was signed. What is left is to recompute the signed text and to compare.
-/

namespace DelegatedFetch

/-- The parameters of a signed request, and what was signed. -/
structure SignedParameters where
  pairs : Pairs
  placement : Placement
  signature : String
  baseString : String
  deriving DecidableEq, Repr

namespace Request

/-- The parameters of the first authorization header. -/
def headerPairs (r : Request) : Pairs :=
  ((r.headers.first? "Authorization").map AuthorizationHeader.parse).getD []

/-- The places that carry parameters of the protocol proper. -/
def carryingPlacements (r : Request) : List Placement :=
  [(Placement.authHeader, r.headerPairs), (.uriQuery, r.url.queryPairs),
    (.postBody, r.formPairs)].filterMap fun (p, ps) =>
      if ps.any (Parameter.isProtocol ·.1) then some p else none

/-- The one place that carries parameters of the protocol proper. -/
def solePlacement (r : Request) : Except Refusal Placement :=
  match r.carryingPlacements with
  | [] => .error .noProtocolParameters
  | [p] => .ok p
  | _ => .error .severalPlacements

/-- All parameters of a request, those of the header first. -/
def allPairs (r : Request) : Pairs := r.headerPairs ++ r.url.queryPairs ++ r.formPairs

end Request

def soleSignature (ps : Pairs) : Except Refusal String :=
  match ps.filter (·.1 == Parameter.signature) with
  | [] => .error .noSignature
  | [(_, s)] => .ok s
  | _ => .error .severalSignatures

/-- The body has the digest that was signed, if one was. -/
def bodyHashAgrees (ps : Pairs) (body : Bytes) : Bool :=
  match ps.first? Parameter.bodyHash with
  | some h => h == Signature.bodyHash body
  | none => true

namespace SignedParameters

def parse (r : Request) : Except Refusal SignedParameters := do
  let placement ← r.solePlacement
  let signature ← soleSignature r.allPairs
  let pairs := BaseString.signedPairs r.allPairs
  if bodyHashAgrees pairs r.body then
    return ⟨pairs, placement, signature, BaseString.render r.method r.url pairs⟩
  else throw .bodyHashMismatch

def verify (s : SignedParameters) (key : VerificationKey) : Except Refusal Unit :=
  match Base64.decode? Base64.standard s.signature with
  | none => .error .signatureNotBase64
  | some bytes =>
    if Signature.matches? key s.baseString bytes then .ok () else .error .signatureMismatch

end SignedParameters

/-- The parameters of a signed request whose signature is right. -/
def Request.verify (r : Request) (key : VerificationKey) : Except Refusal SignedParameters := do
  let s ← SignedParameters.parse r
  s.verify key
  return s

end DelegatedFetch
