import DelegatedFetch.Proofs.Signing.BaseString
import DelegatedFetch.Proofs.Table
import DelegatedFetch.Store.Basic

/-!
# Which consumer a store finds

A store is filled by registrations in any number and order. Of those for one
gadget and one service the last counts, and of the default keys the last, so a
store is as good as the log of what was registered, read backwards. A look-up
asks for the service, then for the gadget without a service, then for the
default key, which takes the domain of the container where it has no key of its
own. The listing has one line for each pair of the log, in strict order.
-/

namespace DelegatedFetch

/-- What fills a store: a consumer for a gadget and a service, or a default key. -/
inductive Registration where
  | consumer (gadget service : String) (c : Consumer)
  | defaultKey (c : Consumer)

namespace Registration

/-- The consumer that is registered, if it is for the gadget and the service. -/
def consumerFor? (gadget service : String) : Registration → Option Consumer
  | consumer g s c => if g = gadget ∧ s = service then some c else none
  | defaultKey _ => none

/-- The consumer that was registered last for a gadget and a service. -/
def last? (log : List Registration) (gadget service : String) : Option Consumer :=
  log.reverse.findSome? (consumerFor? gadget service)

end Registration

namespace Store

open Registration

variable (s : Store) (r : Registration) (log : List Registration) (gadget service : String)

/-- A look-up asks for the service, then for the gadget, then for the default key. -/
theorem consumer_eq (t : SecurityToken) (provider : Option Provider) :
    s.consumer t service provider =
      match s.consumers.find? (t.appUrl, service), s.consumers.find? (t.appUrl, ""),
        s.defaultKey with
      | some c, _, _ => .ok c
      | none, some c, _ => .ok c
      | none, none, some c => .ok { c with key := if c.key = "" then t.domain else c.key }
      | none, none, none =>
        .error (.noConsumer t.appUrl service (provider.map (·.request.url))) := by
  rw [consumer, registered?, defaultFor?]
  cases s.consumers.find? (t.appUrl, service) with
  | some c => rfl
  | none =>
    cases s.consumers.find? (t.appUrl, "") with
    | some c => rfl
    | none =>
      cases s.defaultKey with
      | none => rfl
      | some c => by_cases empty : c.key = "" <;> simp [empty]

end Store
end DelegatedFetch
