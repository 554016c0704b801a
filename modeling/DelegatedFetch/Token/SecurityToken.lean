import DelegatedFetch.Json.Record

/-!
# Who looks at which page

The container has verified who owns the page that a gadget stands on and who
looks at it. Either may be unknown. The rest tells the gadget instance.
-/

namespace DelegatedFetch

/-- Owner and viewer of a page, and the gadget on it. -/
structure SecurityToken where
  owner : Option String
  viewer : Option String
  appId : String
  appUrl : String
  moduleId : UInt64
  domain : String
  deriving DecidableEq, Repr

namespace SecurityToken

/-- The viewer is known to be the owner. -/
def viewerIsOwner (t : SecurityToken) : Bool := t.viewer.isSome && t.owner == t.viewer

open Json

def optionalText (s : Option String) : Value := (s.map Value.text).getD .null

def toJson (t : SecurityToken) : Value :=
  .object [("owner_id", optionalText t.owner), ("viewer_id", optionalText t.viewer),
    ("app_id", .text t.appId), ("app_url", .text t.appUrl),
    ("module_id", .natural t.moduleId.toNat), ("domain", .text t.domain)]

def ofJson? (v : Value) : Option SecurityToken := do
  match ← v.fields? ["owner_id", "viewer_id", "app_id", "app_url", "module_id", "domain"] with
  | [owner, viewer, appId, appUrl, moduleId, domain] =>
    some {
      owner := ← optional? Value.text? owner
      viewer := ← optional? Value.text? viewer
      appId := ← required? Value.text? appId
      appUrl := ← required? Value.text? appUrl
      moduleId := ← required? Value.uint64? moduleId
      domain := ← required? Value.text? domain }
  | _ => none

end SecurityToken
end DelegatedFetch
