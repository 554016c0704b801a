import DelegatedFetch.Http.Method
import DelegatedFetch.Table
import DelegatedFetch.Url.Basic

/-!
# Requests and responses

A request carries its headers in order and its body as bytes. Header names
are compared without letter case. A body counts as a form when the first
`Content-Type` says so, parameters of the type aside. A response carries
metadata for the caller beside what the other side sent.
-/

namespace DelegatedFetch

/-- Headers in order; a name may occur more than once. -/
abbrev Headers := Pairs

namespace Headers

/-- Two header names are the same but for letter case. -/
def sameName (a b : String) : Bool := a.toLower == b.toLower

def first? (hs : Headers) (name : String) : Option String :=
  (hs.find? (sameName ·.1 name)).map (·.2)

/-- The headers with all of a name replaced by one at the end. -/
def set (hs : Headers) (name value : String) : Headers :=
  hs.filter (!sameName ·.1 name) ++ [(name, value)]

end Headers

def formContentType : String := "application/x-www-form-urlencoded"

/-- A request before or after signing. -/
structure Request where
  method : Method
  url : Url
  headers : Headers := []
  body : Bytes := []
  followRedirects : Bool := true
  deriving DecidableEq, Repr

namespace Request

def withHeader (r : Request) (name value : String) : Request :=
  { r with headers := r.headers ++ [(name, value)] }

/-- The request with a header in place of all of its name. -/
def setHeader (r : Request) (name value : String) : Request :=
  { r with headers := r.headers.set name value }

/-- The request with a form as its body, declared as such. -/
def withForm (r : Request) (ps : Pairs) : Request :=
  { r with body := Utf8.encode (Form.encode ps) }.setHeader "Content-Type" formContentType

def contentType? (r : Request) : Option String := r.headers.first? "Content-Type"

def isForm (r : Request) : Bool :=
  match r.contentType? with
  | some t => Headers.sameName (trim (String.ofList (cut (· == ';') t.toList).1)) formContentType
  | none => false

def formPairs (r : Request) : Pairs := if r.isForm then Form.parse r.body else []

def bodyText (r : Request) : String := Utf8.decodeLossy r.body

end Request

/-- A response with metadata for the caller. -/
structure Response where
  status : Nat
  headers : Headers := []
  body : Bytes := []
  metadata : Table String String := .empty
  deriving DecidableEq

namespace Response

def isSuccess (r : Response) : Bool := 200 ≤ r.status && r.status < 300

/-- The status tells that the answer is elsewhere; 304 tells that nothing changed. -/
def isRedirect (r : Response) : Bool := 300 ≤ r.status && r.status < 400 && r.status != 304

def bodyText (r : Response) : String := Utf8.decodeLossy r.body

end Response
end DelegatedFetch
