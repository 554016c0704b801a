import DelegatedFetch.Settings.Basic
import DelegatedFetch.Settings.EnvironmentFile
import DelegatedFetch.Settings.Variable
import DelegatedFetch.Settings.Yaml

/-!
# Loading settings

Settings come from a file and from the environment, which wins. Environment
files then add variables, and references are resolved. Files are read through
a function that is given, in whatever monad it works.
-/

namespace DelegatedFetch.Settings

/-- The document of a file of settings. A directory counts as an empty document. -/
def document (path : String) : Except ReadError String → Except Failure Json.Value
  | .ok text =>
    match Yaml.parse? text with
    | some (.object fields) => .ok (.object fields)
    | _ => .error (.unreadableSettings "not a mapping")
  | .error .missing => .error (.settingsNotFound path)
  | .error .directory => .ok (.object [])
  | .error e => .error (.unreadableSettings e.message)

/-- The settings of a document, with what the environment says over it. -/
def ofDocument (doc : Json.Value) (env : Environment) : Except Failure Settings :=
  match ofJson? (Json.merge doc (Variable.settings env)) with
  | some s => .ok s
  | none => .error (.unreadableSettings "a setting has a wrong type")

/-- A path with the home directory in place of a tilde in front. -/
def homePath (env : Environment) (path : String) : String :=
  match path.toList, (env.find? "HOME").filter (· != "") with
  | '~' :: rest, some home => home ++ String.ofList rest
  | _, _ => path

variable {m : Type → Type} [Monad m]

/-- The environment after some environment files; files that cannot be read are skipped. -/
def loadEnvFiles (readFile : String → m (Except ReadError String)) (env : Environment) :
    List String → m Environment
  | [] => pure env
  | path :: rest => do
    match ← readFile (homePath env path) with
    | .ok text => loadEnvFiles readFile (EnvironmentFile.load env text) rest
    | .error _ => loadEnvFiles readFile env rest

/-- The document of a path; an empty one without a path. -/
def documentOf (readFile : String → m (Except ReadError String)) :
    Option String → m (Except Failure Json.Value)
  | none => pure (.ok (.object []))
  | some path => return document path (← readFile path)

/-- Loads the settings, and with them the environment as the environment files leave it. -/
def load (readFile : String → m (Except ReadError String)) (path : Option String)
    (env : Environment) : m (Except Failure (Settings × Environment)) := do
  match ← documentOf readFile path with
  | .error e => return .error e
  | .ok doc =>
    match ofDocument doc env with
    | .error e => return .error e
    | .ok s =>
      let env ← loadEnvFiles readFile env s.envFiles
      return .ok (s.expand env, env)

def loadConsumers (readFile : String → m (Except ReadError String)) (s : Settings)
    (env : Environment) : m (Except Failure Store) := do
  match s.consumersFile with
  | none => return .ok {}
  | some path =>
    let (result, store) := Store.loadFile {} env path (← readFile path)
    return result.map fun _ => store

/-- The store of the settings: consumers first, then the default key. -/
def loadStore (readFile : String → m (Except ReadError String)) (s : Settings)
    (env : Environment) : m (Except Failure Store) := do
  match ← loadConsumers readFile s env, s.signing.keyFile with
  | .ok store, some path =>
    return store.loadDefaultKey path (← readFile path) s.signing.consumerKey s.signing.keyName
      s.signing.callback
  | result, _ => return result

end DelegatedFetch.Settings
