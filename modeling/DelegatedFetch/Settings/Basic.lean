import DelegatedFetch.Fetch.Call
import DelegatedFetch.Json.Record
import DelegatedFetch.Store.Document

/-!
# Settings

What an operator chooses: how state is sealed, the default key, where
consumers are registered, where tokens are kept, whether results are cached.
Every setting has a default. From the settings the parts of a fetcher are
built; a part that cannot be built names its cause.
-/

namespace DelegatedFetch

open Json

/-- How state is sealed: the key material, its purpose, and how many seconds state is good for. -/
structure StateSettings where
  masterKey : String := ""
  label : String := "oauthState"
  maxAgeSecs : UInt64 := 3600
  deriving DecidableEq, Repr

structure SigningSettings where
  keyFile : Option String := none
  keyName : Option String := none
  consumerKey : Option String := none
  callback : Option String := none
  deriving DecidableEq, Repr

/-- Where tokens are kept, and whether exchanges are shown. -/
structure FetcherSettings where
  persistence : TokenPersistence := .server
  sendTrace : Bool := true
  deriving DecidableEq, Repr

/-- Whether results are cached, for how many seconds, and how many of them. -/
structure CacheSettings where
  enabled : Bool := false
  ttlSecs : UInt64 := 30
  maxEntries : UInt64 := 1000
  deriving DecidableEq, Repr

structure Settings where
  envFiles : List String := []
  state : StateSettings := {}
  signing : SigningSettings := {}
  consumersFile : Option String := none
  fetcher : FetcherSettings := {}
  cache : CacheSettings := {}
  timeoutSecs : UInt64 := 30
  deriving DecidableEq, Repr

def Json.Value.bool? : Value → Option Bool
  | .bool b => some b
  | _ => none

def Json.Value.texts? : Value → Option (List String)
  | .array items => items.mapM Value.text?
  | _ => none

def TokenPersistence.ofJson? (v : Value) : Option TokenPersistence := do
  let word ← v.text?
  TokenPersistence.all.find? (·.word == word)

def StateSettings.ofJson? (v : Value) : Option StateSettings := do
  match ← v.fields? ["master_key", "label", "max_age_secs"] with
  | [key, label, age] =>
    some {
      masterKey := ← defaulted? "" Value.text? key
      label := ← defaulted? "oauthState" Value.text? label
      maxAgeSecs := ← defaulted? 3600 Value.uint64? age }
  | _ => none

def SigningSettings.ofJson? (v : Value) : Option SigningSettings := do
  match ← v.fields? ["key_file", "key_name", "consumer_key", "callback_url"] with
  | [file, name, key, callback] =>
    some {
      keyFile := ← optional? Value.text? file
      keyName := ← optional? Value.text? name
      consumerKey := ← optional? Value.text? key
      callback := ← optional? Value.text? callback }
  | _ => none

def Settings.consumersFileOfJson? (v : Value) : Option (Option String) := do
  match ← v.fields? ["consumers_file"] with
  | [file] => optional? Value.text? file
  | _ => none

def FetcherSettings.ofJson? (v : Value) : Option FetcherSettings := do
  match ← v.fields? ["token_persistence", "send_trace_to_client"] with
  | [persistence, trace] =>
    some {
      persistence := ← defaulted? .server TokenPersistence.ofJson? persistence
      sendTrace := ← defaulted? true Value.bool? trace }
  | _ => none

def CacheSettings.ofJson? (v : Value) : Option CacheSettings := do
  match ← v.fields? ["enabled", "ttl_secs", "max_entries"] with
  | [enabled, ttl, entries] =>
    some {
      enabled := ← defaulted? false Value.bool? enabled
      ttlSecs := ← defaulted? 30 Value.uint64? ttl
      maxEntries := ← defaulted? 1000 Value.uint64? entries }
  | _ => none

def Settings.timeoutOfJson? (v : Value) : Option UInt64 := do
  match ← v.fields? ["timeout_secs"] with
  | [timeout] => defaulted? 30 Value.uint64? timeout
  | _ => none

namespace Settings

def sections : List String :=
  ["env_files", "state", "signing", "store", "fetcher", "cache", "transport"]

def ofJson? (v : Value) : Option Settings := do
  match ← v.fields? sections with
  | [files, state, signing, store, fetcher, cache, transport] =>
    some {
      envFiles := ← defaulted? [] Value.texts? files
      state := ← defaulted? {} StateSettings.ofJson? state
      signing := ← defaulted? {} SigningSettings.ofJson? signing
      consumersFile := ← defaulted? none consumersFileOfJson? store
      fetcher := ← defaulted? {} FetcherSettings.ofJson? fetcher
      cache := ← defaulted? {} CacheSettings.ofJson? cache
      timeoutSecs := ← defaulted? 30 timeoutOfJson? transport }
  | _ => none

def toJson (s : Settings) : Value :=
  let number (n : UInt64) : Value := .natural n.toNat
  let text := SecurityToken.optionalText
  .object [
    ("env_files", .array (s.envFiles.map .text)),
    ("state", .object [("master_key", .text s.state.masterKey), ("label", .text s.state.label),
      ("max_age_secs", number s.state.maxAgeSecs)]),
    ("signing", .object [("key_file", text s.signing.keyFile),
      ("key_name", text s.signing.keyName), ("consumer_key", text s.signing.consumerKey),
      ("callback_url", text s.signing.callback)]),
    ("store", .object [("consumers_file", text s.consumersFile)]),
    ("fetcher", .object [("token_persistence", .text s.fetcher.persistence.word),
      ("send_trace_to_client", .bool s.fetcher.sendTrace)]),
    ("cache", .object [("enabled", .bool s.cache.enabled), ("ttl_secs", number s.cache.ttlSecs),
      ("max_entries", number s.cache.maxEntries)]),
    ("transport", .object [("timeout_secs", number s.timeoutSecs)])]

/-- The settings with the references in keys, names and paths resolved. -/
def expand (s : Settings) (env : Environment) : Settings :=
  { s with
    state := { s.state with masterKey := env.expand s.state.masterKey }
    signing := {
      keyFile := s.signing.keyFile.map env.expand
      keyName := s.signing.keyName.map env.expand
      consumerKey := s.signing.consumerKey.map env.expand
      callback := s.signing.callback.map env.expand }
    consumersFile := s.consumersFile.map env.expand }

/-- How many milliseconds state is good for. -/
def stateMaxAge (s : Settings) : Nat := s.state.maxAgeSecs.toNat * 1000

def crypter (s : Settings) : Except Failure Crypter :=
  if s.state.masterKey = "" then .error .noMasterKey
  else Crypter.of (Utf8.encode s.state.masterKey) s.state.label

/-- The cache of the settings, if results are to be cached. -/
def resultCache? (s : Settings) : Option Cache :=
  if s.cache.enabled then
    some { ttl := s.cache.ttlSecs.toNat * 1000, capacity := s.cache.maxEntries.toNat }
  else none

def policy (s : Settings) : Except Failure FetchPolicy := do
  return ⟨← s.crypter, s.fetcher.persistence, s.fetcher.sendTrace, s.stateMaxAge⟩

end Settings
end DelegatedFetch
