import DelegatedFetch.Http.Message
import DelegatedFetch.Protocol.Refusal
import DelegatedFetch.Text.Excerpt
import DelegatedFetch.Text.Redaction

/-!
# What the caller is told

The outcome of a fetch is told as metadata of a response: the sealed state for
the next call, the page where access is approved, or the code of a refusal
with a text. The text may show what was exchanged with the provider; secrets
are taken out before it is put together, and long bodies are cut.
-/

namespace DelegatedFetch

/-- One exchange as it is shown. -/
structure TraceEntry where
  label : String
  text : String
  deriving DecidableEq, Repr

namespace TraceEntry

def headerLines (hs : Headers) : String := String.join (hs.map fun h => h.1 ++ ": " ++ h.2 ++ "\n")

def bodyLines (body : Bytes) : String :=
  if body.isEmpty then "" else "\n" ++ Excerpt.excerpt (Utf8.decodeLossy body) ++ "\n"

def requestText (r : Request) : String :=
  r.method.name ++ " " ++ r.url.render ++ "\n" ++ headerLines r.headers ++ bodyLines r.body

def replyText : Option Response → String
  | some r => "\n<- " ++ toString r.status ++ "\n" ++ headerLines r.headers ++ bodyLines r.body
  | none => "\n<- no response\n"

/-- The entry of an exchange, without secrets. -/
def of (label : String) (request : Request) (reply : Option Response) : TraceEntry :=
  ⟨label, Redaction.redact (requestText request ++ replyText reply)⟩

def render (e : TraceEntry) : String := "== " ++ e.label ++ " ==\n" ++ e.text ++ "\n"

end TraceEntry

/-- What the caller is told of a fetch. -/
structure Report where
  sendTrace : Bool
  error : Option Refusal := none
  approvalUrl : Option String := none
  clientState : Option String := none
  trace : List TraceEntry := []
  deriving DecidableEq, Repr

namespace Report

def stateKey : String := "oauthState"
def approvalKey : String := "oauthApprovalUrl"
def errorKey : String := "oauthError"
def errorTextKey : String := "oauthErrorText"

def traceText (r : Report) : String := String.join (r.trace.map TraceEntry.render)

/-- The text of the refusal, without secrets, and with the exchanges if they are to be sent. -/
def errorText (r : Report) : Option String :=
  r.error.map fun e =>
    Redaction.redact e.message ++
      if r.sendTrace && !r.trace.isEmpty then "\n\n" ++ r.traceText else ""

def metadata (r : Report) : List (String × String) :=
  (r.clientState.map fun s => (stateKey, s)).toList ++
    (r.approvalUrl.map fun u => (approvalKey, u)).toList ++
    (r.error.map fun e => (errorKey, e.code)).toList ++
    (r.errorText.map fun t => (errorTextKey, t)).toList

def attach (r : Report) (response : Response) : Response :=
  { response with
    metadata := r.metadata.foldl (fun t (k, v) => t.insert k v) response.metadata }

/-- An empty response with the report: forbidden if the fetch was refused. -/
def toResponse (r : Report) : Response :=
  r.attach { status := if r.error.isSome then 403 else 200 }

end Report
end DelegatedFetch
