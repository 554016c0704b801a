import DelegatedFetch.Protocol.Refusal
import DelegatedFetch.Signing.Placement
import DelegatedFetch.Url.Parse

/-!
# Services that a gadget declares

A service of this protocol has an endpoint for request tokens, one for access
tokens and a page for approval. A declaration that could never be used is
refused when it is read, not when it is needed. Services of the later
protocol are declared, too, but cannot be fetched from here.
-/

namespace DelegatedFetch

/-- A token endpoint with the method and the placement that it wants. -/
structure Endpoint where
  url : Url
  method : Method
  placement : Placement
  deriving DecidableEq, Repr

namespace Endpoint

/-- An endpoint that can be signed for: by GET or POST, and by POST when the parameters go into the
body. -/
def check (url : Url) (method : Method) (placement : Placement) : Except Refusal Endpoint :=
  if method ≠ .get ∧ method ≠ .post then .error (.unsupportedEndpointMethod url method)
  else if placement = .postBody ∧ method = .get then .error (.bodyPlacementOnGet url)
  else .ok ⟨url, method, placement⟩

/-- The endpoint of a declaration; by default it is called by GET with a header. -/
def parse (url : String) (method placement : Option String) : Except Refusal Endpoint := do
  let method ← match method with
    | none => pure Method.get
    | some m => ((Method.parse? m).map .ok).getD (.error (.unknownEndpointMethod m))
  let placement ← match placement with
    | none => pure Placement.authHeader
    | some l => ((Placement.parse? l).map .ok).getD (.error (.unknownPlacement l))
  match Url.parse url with
  | .ok u => check u method placement
  | .error e => .error (.invalidEndpointUrl url e)

end Endpoint

structure Provider where
  name : String
  request : Endpoint
  access : Endpoint
  authorization : Url
  deriving DecidableEq, Repr

def Provider.parse (name : String) (request access : Endpoint) (authorization : String) :
    Except Refusal Provider :=
  match Url.parse authorization with
  | .ok u => .ok ⟨name, request, access, u⟩
  | .error e => .error (.invalidAuthorizationUrl authorization e)

/-- A service of the later protocol. -/
structure LaterProvider where
  name : String
  authorization : Endpoint
  token : Endpoint
  scope : Option String
  deriving DecidableEq, Repr

inductive Service where
  | current (provider : Provider)
  | later (provider : LaterProvider)
  deriving DecidableEq, Repr

def Service.name : Service → String
  | current p => p.name
  | later p => p.name

/-- The services that a gadget declares, by name. -/
abbrev Services := Table String Service

namespace Services

/-- The services with one more; a later one of the same name replaces it. -/
def add (s : Services) (service : Service) : Services := s.insert service.name service

def names (s : Services) : List String := s.keys.mergeSort

/-- The service of a name, if it can be fetched from. -/
def provider (s : Services) (name : String) : Except Refusal Provider :=
  match s.find? name with
  | some (.current p) => .ok p
  | some (.later _) => .error (.laterProtocol name)
  | none => .error (.undeclaredService name s.names)

end Services
end DelegatedFetch
