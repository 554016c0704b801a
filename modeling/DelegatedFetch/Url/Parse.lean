import DelegatedFetch.Text.Blank
import DelegatedFetch.Url.Basic
import DelegatedFetch.Url.Domain
import DelegatedFetch.Url.Error

/-!
# Reading URLs

A text is read as an absolute URL by the rules that browsers follow. The
schemes of the web (`http`, `https`, `ws`, `wss`, `ftp`, `file`) are special:
they always have a host and a path, a backslash counts as a slash, and the
host is a domain name or an address. Other schemes keep their host as it is
written, and may have a path that is opaque.

Reading never guesses a base: a text without a scheme is refused.
-/

namespace DelegatedFetch.Url

/-- What a scheme means for the rest of a URL. -/
inductive SchemeKind where
  | web (defaultPort : Nat)
  | file
  | other
  deriving DecidableEq

def schemeKind : String → SchemeKind
  | "http" | "ws" => .web 80
  | "https" | "wss" => .web 443
  | "ftp" => .web 21
  | "file" => .file
  | _ => .other

/-- Special schemes treat a backslash as a slash. -/
def SchemeKind.isSpecial : SchemeKind → Bool
  | .other => false
  | _ => true

def SchemeKind.isSlash (k : SchemeKind) (c : Char) : Bool := c == '/' || (k.isSpecial && c == '\\')

def isSchemeChar (c : Char) : Bool :=
  c.isAlphanum || c == '+' || c == '-' || c == '.'

def cutScheme? (text : List Char) : Option (String × List Char) :=
  match text, cut? (· == ':') text with
  | first :: _, some (name, rest) =>
    if first.isAlpha && name.all isSchemeChar then
      some (String.ofList (name.map Char.toLower), rest)
    else none
  | _, _ => none

def isPlain (b : UInt8) : Bool := 0x20 ≤ b && b < 0x7F

def plainExcept (excluded : String) (b : UInt8) : Bool :=
  isPlain b && !(excluded.toList.any fun c => c.toNat == b.toNat)

def escapePart (keep : UInt8 → Bool) (cs : List Char) : String :=
  String.ofList (Percent.encodeKeeping keep (Utf8.encode (String.ofList cs)))

def keepUser : UInt8 → Bool := plainExcept " \"<>`#?\x7b\x7d/:;=@[\\]^|"

def keepPath : UInt8 → Bool := plainExcept " \"<>`#?\x7b\x7d"

/-- The characters that stay in queries; a special scheme escapes the apostrophe. -/
def keepQuery (k : SchemeKind) : UInt8 → Bool :=
  plainExcept (if k.isSpecial then " \"#<>'" else " \"#<>")

def keepFragment : UInt8 → Bool := plainExcept " \"<>`"

def isForbiddenHostChar (c : Char) : Bool :=
  "\x00\t\n\r #/:<>?@[\\]^|".contains c

def bracketedHost (cs : List Char) : Except UrlError Host :=
  match cs.getLast?, Ipv6.parse? cs.dropLast with
  | some ']', some gs => .ok (.ipv6 gs)
  | _, _ => .error .invalidIpv6

def domainHost (cs : List Char) : Except UrlError Host :=
  match cs with
  | '[' :: rest => bracketedHost rest
  | _ =>
    let text := Utf8.lossyChars (Percent.decodeBytes (Utf8.encode (String.ofList cs)))
    match Domain.toAscii? text with
    | none => .error .invalidDomain
    | some [] => .error .emptyHost
    | some name =>
      if Ipv4.endsInNumber name then
        match Ipv4.parse? name with
        | some a => .ok (.ipv4 a)
        | none => .error .invalidIpv4
      else .ok (.domain (String.ofList name))

/-- The host of any other scheme, kept as it is written. -/
def opaqueHost (cs : List Char) : Except UrlError Host :=
  match cs with
  | [] => .ok .empty
  | '[' :: rest => bracketedHost rest
  | _ =>
    if cs.any isForbiddenHostChar then .error .invalidHostCharacter
    else .ok (.domain (escapePart isPlain cs))

def parseUser (cs : List Char) : String × String :=
  let (name, password) := cut (· == ':') cs
  (escapePart keepUser name, escapePart keepUser password)

def cutUser? (authority : List Char) : Option (List Char × List Char) :=
  (cut? (· == '@') authority.reverse).map fun (after, before) => (before.reverse, after.reverse)

/-- The host text and the text from the colon of the port on. Colons in brackets do not count. -/
def cutPort (inBrackets : Bool) : List Char → List Char × List Char
  | [] => ([], [])
  | c :: rest =>
    if c = ':' ∧ inBrackets = false then ([], c :: rest)
    else
      let inBrackets := if c = '[' then true else if c = ']' then false else inBrackets
      let (host, port) := cutPort inBrackets rest
      (c :: host, port)

/-- The port that some digits write; none for no digits and for the scheme's own port. -/
def parsePort (k : SchemeKind) (digits : List Char) : Except UrlError (Option Nat) :=
  match digits with
  | [] => .ok none
  | _ =>
    match Decimal.digits? digits with
    | some n =>
      if n ≤ 65535 then .ok (if k = .web n then none else some n) else .error .invalidPort
    | none => .error .invalidPort

structure Authority where
  username : String
  password : String
  host : Host
  port : Option Nat

/-- Reads the authority of any scheme but `file`; `isLast` says that the URL ends with it. A special
scheme needs a host. Any other needs one when it names a user or a port, and when more follows a
bare `@`. -/
def parseAuthority (k : SchemeKind) (isLast : Bool) (cs : List Char) :
    Except UrlError Authority := do
  let (user, server) := match cutUser? cs with
    | some (user, server) => (some user, server)
    | none => (none, cs)
  let (username, password) := parseUser (user.getD [])
  let (hostText, portText) := cutPort false server
  let needsHost := k.isSpecial || username ++ password ≠ "" || !portText.isEmpty ||
    (user = some [] && !isLast)
  if hostText.isEmpty && needsHost then throw .emptyHost
  let host ← if k.isSpecial then domainHost hostText else opaqueHost hostText
  let port ← parsePort k (portText.drop 1)
  return ⟨username, password, host, port⟩

/-- A segment that names the segment itself, an escaped dot counting as a dot. -/
def isSingleDot (s : String) : Bool := s.toLower == "." || s.toLower == "%2e"

def isDoubleDot (s : String) : Bool :=
  [".." , ".%2e", "%2e.", "%2e%2e"].contains s.toLower

/-- A letter and a colon, or a bar in its place. -/
def isDriveLetter (s : String) : Bool :=
  match s.toList with
  | [c, d] => c.isAlpha && (d == ':' || d == '|')
  | _ => false

/-- The segments, last first, after one more segment. Dots go up or stay; at the end they leave an
empty segment. -/
def pushSegment (k : SchemeKind) (isLast : Bool) (done : List String) (s : String) : List String :=
  let stay := fun (done : List String) => if isLast then "" :: done else done
  if isDoubleDot s then
    match k, done with
    | .file, [d] => stay (if isDriveLetter d then [d] else [])
    | _, _ => stay done.tail
  else if isSingleDot s then stay done
  else if k = .file ∧ done.isEmpty ∧ isDriveLetter s then
    [String.ofList (s.toList.take 1 ++ [':'])]
  else s :: done

def normalizeSegments (k : SchemeKind) (done : List String) : List String → List String
  | [] => done
  | [s] => pushSegment k true done s
  | s :: rest => normalizeSegments k (pushSegment k false done s) rest

def parsePath (k : SchemeKind) (cs : List Char) : String :=
  let segments := (pieces k.isSlash cs).map (escapePart keepPath)
  let segments := (normalizeSegments k [] segments).reverse
  let segments := if k = .file then
      match segments.dropWhile (· == "") with
      | [] => [""]
      | rest => rest
    else segments
  "/" ++ String.intercalate "/" segments

/-- Scheme, authority and path, from what stands before query and fragment; `isLast` says that
neither follows. -/
def parseHierarchy (scheme : String) (k : SchemeKind) (isLast : Bool) (cs : List Char) :
    Except UrlError Url := do
  let bare : Url := ⟨scheme, "", "", none, none, "", none, none⟩
  match k with
  | .web _ =>
    let cs := cs.dropWhile k.isSlash
    let (authority, path) := cs.span (!k.isSlash ·)
    let a ← parseAuthority k (isLast && path.isEmpty) authority
    return { bare with
      username := a.username, password := a.password, host := some a.host, port := a.port
      path := parsePath k (path.drop 1) }
  | .file =>
    let (slashes, rest) := cs.span k.isSlash
    let cs := slashes.drop 2 ++ rest
    if slashes.length = 2 ∧ !isDriveLetter (String.ofList (rest.takeWhile (!k.isSlash ·))) then
      let (hostText, path) := cs.span (!k.isSlash ·)
      let host ← if hostText.isEmpty then pure Host.empty else domainHost hostText
      let host := if host = .domain "localhost" then .empty else host
      return { bare with host := some host, path := parsePath k (path.drop 1) }
    else
      return { bare with host := some .empty, path := parsePath k cs }
  | .other =>
    match cs with
    | '/' :: '/' :: rest =>
      let (authority, path) := rest.span (· ≠ '/')
      let a ← parseAuthority k (isLast && path.isEmpty) authority
      return { bare with
        username := a.username, password := a.password, host := some a.host, port := a.port
        path := if path.isEmpty then "" else parsePath k (path.drop 1) }
    | '/' :: rest => return { bare with path := parsePath k rest }
    | _ => return { bare with path := escapePart isPlain cs }

def isDropped (c : Char) : Bool := c == '\t' || c == '\n' || c == '\r'

/-- The URL that a text writes. Control characters and spaces around it do not count. -/
def parse (text : String) : Except UrlError Url := do
  let cs := (strip (·.toNat ≤ 0x20) text.toList).filter (!isDropped ·)
  match cutScheme? cs with
  | none => throw .relativeWithoutBase
  | some (scheme, rest) =>
    let k := schemeKind scheme
    let (rest, fragment) := match cut? (· == '#') rest with
      | some (a, b) => (a, some (escapePart keepFragment b))
      | none => (rest, none)
    let (rest, query) := match cut? (· == '?') rest with
      | some (a, b) => (a, some (escapePart (keepQuery k) b))
      | none => (rest, none)
    let url ← parseHierarchy scheme k (query.isNone && fragment.isNone) rest
    return { url with query, fragment }

end DelegatedFetch.Url
