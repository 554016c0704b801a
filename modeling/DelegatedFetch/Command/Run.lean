import DelegatedFetch.Command.Line
import DelegatedFetch.Settings.Load

/-!
# Commands

One command signs a request and prints it, one reports what the settings say,
one shows what a sealed state holds, secrets masked, and one makes key
material. What a command has printed stays printed when it stops with an
error.
-/

namespace DelegatedFetch.Command

/-- Why a command stops. -/
inductive CommandError where
  | invalidUrl (text : String) (cause : UrlError)
  | unknownMethod (word : String)
  | unknownPlacement (word : String)
  | unreadableKey (path : String) (cause : ReadError)
  | noSecret
  | refused (cause : Refusal)
  | staleState (seconds : UInt64)
  | stateDisabled
  | failed (context : Option String) (cause : Failure)
  deriving DecidableEq, Repr

/-- The wording of an error, up to the wording of the failure that caused it. -/
def CommandError.opening : CommandError → String
  | invalidUrl text e => "Invalid URL: " ++ text ++ ": " ++ e.message
  | unknownMethod w => "Unsupported method: " ++ w
  | unknownPlacement w => "Unknown parameter location: " ++ w
  | unreadableKey path e => "Failed to read " ++ path ++ ": " ++ e.message
  | noSecret => "Either --consumer-secret or --rsa-key is required"
  | refused r => r.render
  | staleState s => "State is malformed or older than " ++ toString s.toNat ++ "s"
  | stateDisabled => "state.master_key is required for the fetcher"
  | failed context _ => (context.map (· ++ ": ")).getD ""

def CommandError.failure? : CommandError → Option Failure
  | failed _ f => some f
  | _ => none

def CommandError.message (e : CommandError) : String :=
  e.opening ++ (e.failure?.map Failure.message).getD ""

/-- What a command has printed, and how it ended. -/
structure Outcome where
  printed : String
  error : Option CommandError := none
  deriving DecidableEq, Repr

def printed (lines : List String) : Outcome := ⟨String.join (lines.map (· ++ "\n")), none⟩

def stopped (e : CommandError) : Outcome := ⟨"", some e⟩

/-- What a request to sign looks like. -/
structure SignTask where
  request : Request
  credentials : Credentials
  placement : Placement

/-- The request of a line: the body is a form if there is one. -/
def signRequest (l : Line) (method : Method) (url : Url) : Request :=
  let r : Request := { method, url }
  match l.value? dataOption with
  | some data =>
    { r.withHeader "Content-Type" formContentType with body := Utf8.encode data }
  | none => r

/-- The secret of a line. `contents` is what is in the file of the private key. -/
def signSecret (l : Line) (contents : Option (String × Except ReadError String)) :
    Except CommandError ConsumerSecret :=
  match contents, l.value? consumerSecretOption with
  | some (path, .error e), _ => .error (.unreadableKey path e)
  | some (_, .ok text), _ =>
    match KeyDocument.ofPem? text with
    | some key => .ok (.rsa key)
    | none => .error (.failed none (.key .unreadable))
  | none, some secret => .ok (.hmac secret)
  | none, none => .error .noSecret

def signTask (l : Line) (contents : Option (String × Except ReadError String)) :
    Except CommandError SignTask := do
  let text := l.words.headD ""
  let url ← (Url.parse text).mapError (CommandError.invalidUrl text)
  let word := (l.value? methodOption).getD Method.get.name
  let method ← ((Method.parse? word).map .ok).getD (.error (.unknownMethod word))
  let place := (l.value? locationOption).getD Placement.authHeader.word
  let placement ← ((Placement.parse? place).map .ok).getD (.error (.unknownPlacement place))
  let secret ← signSecret l contents
  return ⟨signRequest l method url,
    ⟨(l.value? consumerKeyOption).getD "", secret, l.value? tokenOption,
      l.value? tokenSecretOption⟩, placement⟩

def requestLines (r : Request) : List String :=
  (r.method.name ++ " " ++ r.url.render) :: r.headers.map (fun h => h.1 ++ ": " ++ h.2) ++
    if r.body.isEmpty then [] else ["", r.bodyText]

def sign (l : Line) (contents : Option (String × Except ReadError String)) (clock : Clock)
    (entropy : Entropy) : Outcome :=
  match signTask l contents with
  | .error e => stopped e
  | .ok t =>
    match (t.request.sign t.credentials [] t.placement clock entropy).1 with
    | .ok signed => printed (requestLines signed)
    | .error r => stopped (.refused r)

def consumerLine (c : ConsumerSummary) : String :=
  "  " ++ c.gadget ++ " [" ++ (if c.service = "" then "*" else c.service) ++ "] key=" ++
    c.consumerKey ++ " (" ++ c.keyType.name ++ ")"

def cacheLine (c : CacheSettings) : String :=
  if c.enabled then
    "   Result cache: " ++ toString c.maxEntries.toNat ++ " entries, " ++
      toString c.ttlSecs.toNat ++ "s TTL"
  else "   Result cache: disabled"

def settingsLines (s : Settings) (store : Store) : List String :=
  let enabled := s.crypter.toBool
  ["✅ Configuration valid",
    "   Token persistence: " ++ s.fetcher.persistence.name,
    "   Client state: " ++ (if enabled then "enabled" else "disabled"),
    "   State max age: " ++ toString s.state.maxAgeSecs.toNat ++ "s",
    "   Default signing key: " ++ (if store.defaultKey.isSome then "yes" else "no"),
    cacheLine s.cache, "",
    "Consumers (" ++ toString store.summaries.length ++ "):"] ++
    store.summaries.map consumerLine

/-- Reports what the settings say. Without a crypter no fetcher can be built. -/
def check (s : Settings) (store : Store) : Outcome :=
  match s.crypter with
  | .ok _ => printed (settingsLines s store)
  | .error f =>
    { printed (("⚠️  Client state disabled: " ++ f.message) :: settingsLines s store) with
      error := some .stateDisabled }

def masked (s : Option String) : String := if s.isSome then "<set>" else "-"

def stateLines (s : ClientState) : List String :=
  ["owner:          " ++ s.owner.getD "-",
    "request token:  " ++ masked s.requestToken,
    "access token:   " ++ masked s.accessToken,
    "session handle: " ++ masked s.sessionHandle,
    "expires:        " ++
      (s.expires.map fun e => toString e.toNat ++ " (epoch millis)").getD "-",
    "callback:       " ++ s.callback.getD "-"]

def inspect (s : Settings) (blob : String) (now : UInt64) : Outcome :=
  match s.crypter with
  | .error f => stopped (.failed none f)
  | .ok c =>
    match c.openBlob blob with
    | .error e =>
      stopped (.failed (some "State does not unseal with the configured master key") (.blob e))
    | .ok _ =>
      let state := ClientState.decode c (some blob) s.stateMaxAge now
      if state = .empty then stopped (.staleState s.state.maxAgeSecs)
      else printed (stateLines state)

variable {m : Type → Type} [Monad m]

def loadSettings (readFile : String → m (Except ReadError String)) (l : Line)
    (env : Environment) : m (Except CommandError (Settings × Environment)) := do
  return (← Settings.load readFile (l.value? configOption) env).mapError
    (CommandError.failed (some "Failed to load configuration"))

def runCheck (readFile : String → m (Except ReadError String)) (l : Line) (env : Environment) :
    m Outcome := do
  match ← loadSettings readFile l env with
  | .error e => return stopped e
  | .ok (s, env) =>
    match ← Settings.loadStore readFile s env with
    | .error f => return stopped (.failed (some "Failed to load consumers") f)
    | .ok store => return check s store

def runInspect (readFile : String → m (Except ReadError String)) (l : Line) (env : Environment)
    (now : UInt64) : m Outcome := do
  match ← loadSettings readFile l env with
  | .error e => return stopped e
  | .ok (s, _) => return inspect s (l.words.headD "") now

def runSign (readFile : String → m (Except ReadError String)) (l : Line) (clock : Clock)
    (entropy : Entropy) : m Outcome := do
  match l.value? rsaKeyOption with
  | some path => return sign l (some (path, ← readFile path)) clock entropy
  | none => return sign l none clock entropy

def Line.run (readFile : String → m (Except ReadError String)) (env : Environment)
    (clock : Clock) (entropy : Entropy) (l : Line) : m Outcome :=
  if l.command = signSpec then runSign readFile l clock entropy
  else if l.command = checkSpec then runCheck readFile l env
  else if l.command = inspectSpec then runInspect readFile l env clock.millis
  else return printed [(Crypter.freshMaterial entropy).1]

end DelegatedFetch.Command
