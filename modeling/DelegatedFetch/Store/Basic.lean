import DelegatedFetch.Service.Provider
import DelegatedFetch.Store.Consumer
import DelegatedFetch.Token.TokenInfo

/-!
# Consumers and tokens in store

Consumers are registered for a gadget and a service. A look-up takes the
registration of the service, then the one of the gadget without a service,
then the default key of the store. Access tokens are kept for each viewer.
-/

namespace DelegatedFetch

/-- Registered consumers, a default key, and the access tokens of viewers. -/
structure Store where
  consumers : Table (String × String) Consumer := .empty
  defaultKey : Option Consumer := none
  tokens : Table TokenKey TokenInfo := .empty

/-- One line of a listing of consumers. -/
structure ConsumerSummary where
  gadget : String
  service : String
  consumerKey : String
  keyType : KeyType
  deriving DecidableEq, Repr

namespace Store

instance : Inhabited Store := ⟨{}⟩

def setConsumer (s : Store) (gadget service : String) (c : Consumer) : Store :=
  { s with consumers := s.consumers.insert (gadget, service) c }

def setDefaultKey (s : Store) (c : Consumer) : Store := { s with defaultKey := some c }

/-- The consumer that is registered for a gadget and a service, or else for the gadget. -/
def registered? (s : Store) (gadget service : String) : Option Consumer :=
  s.consumers.find? (gadget, service) <|> s.consumers.find? (gadget, "")

/-- The default key for a container; without a key of its own, the domain is its key. -/
def defaultFor? (s : Store) (domain : String) : Option Consumer :=
  s.defaultKey.map fun c => if c.key = "" then { c with key := domain } else c

def consumer (s : Store) (t : SecurityToken) (service : String) (provider : Option Provider) :
    Except Refusal Consumer :=
  match s.registered? t.appUrl service <|> s.defaultFor? t.domain with
  | some c => .ok c
  | none => .error (.noConsumer t.appUrl service (provider.map (·.request.url)))

def summaryLE (a b : ConsumerSummary) : Bool :=
  a.gadget < b.gadget || (a.gadget == b.gadget && a.service ≤ b.service)

def summaries (s : Store) : List ConsumerSummary :=
  (s.consumers.entries.map fun ((gadget, service), c) =>
    ⟨gadget, service, c.key, c.keyType⟩).mergeSort summaryLE

def token? (s : Store) (t : SecurityToken) (service tokenName : String) :
    Except Refusal (Option TokenInfo) :=
  (TokenKey.of t service tokenName).map s.tokens.find?

def setToken (s : Store) (t : SecurityToken) (service tokenName : String) (info : TokenInfo) :
    Except Refusal Store :=
  (TokenKey.of t service tokenName).map fun k => { s with tokens := s.tokens.insert k info }

def removeToken (s : Store) (t : SecurityToken) (service tokenName : String) :
    Except Refusal Store :=
  (TokenKey.of t service tokenName).map fun k => { s with tokens := s.tokens.erase k }

variable {s s' : Store} {t : SecurityToken} {service tokenName : String} {info : TokenInfo}

theorem token?_eq_ok {found : Option TokenInfo} (h : s.token? t service tokenName = .ok found) :
    ∃ key, TokenKey.of t service tokenName = .ok key ∧ s.tokens.find? key = found := by
  unfold token? at h
  cases key : TokenKey.of t service tokenName with
  | error r => rw [key] at h; cases h
  | ok k => rw [key] at h; exact ⟨k, rfl, Except.ok.inj h⟩

theorem setToken_eq_ok (h : s.setToken t service tokenName info = .ok s') :
    ∃ key, TokenKey.of t service tokenName = .ok key ∧
      s' = { s with tokens := s.tokens.insert key info } := by
  unfold setToken at h
  cases key : TokenKey.of t service tokenName with
  | error r => rw [key] at h; cases h
  | ok k => rw [key] at h; exact ⟨k, rfl, (Except.ok.inj h).symm⟩

theorem removeToken_eq_ok (h : s.removeToken t service tokenName = .ok s') :
    ∃ key, TokenKey.of t service tokenName = .ok key ∧
      s' = { s with tokens := s.tokens.erase key } := by
  unfold removeToken at h
  cases key : TokenKey.of t service tokenName with
  | error r => rw [key] at h; cases h
  | ok k => rw [key] at h; exact ⟨k, rfl, (Except.ok.inj h).symm⟩

end Store
end DelegatedFetch
