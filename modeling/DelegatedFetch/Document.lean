import DelegatedFetch.Fetch.Call

/-!
# Documents

Values that are kept or sent as JSON documents. Choices are written as words,
records as objects. A document is read with the liberties of a record: fields
in any order, or as an array; it is written in one form only.
-/

namespace DelegatedFetch

open Json

/-- What a document holds. -/
inductive DocumentType where
  | tokenUse
  | fetchKind
  | signatureMethod
  | keyType
  | placement
  | method
  | persistence
  | securityToken
  | tokenInfo
  | clientState
  deriving DecidableEq, Repr

def TokenUse.documentWord (u : TokenUse) : String := u.word.toUpper

def FetchKind.documentWord : FetchKind → String
  | .delegated => "o_auth"
  | .signed => "signed_fetch"

namespace DocumentType

def words : DocumentType → List String
  | tokenUse => TokenUse.all.map TokenUse.documentWord
  | fetchKind => [FetchKind.delegated, .signed].map FetchKind.documentWord
  | signatureMethod => [SignatureMethod.hmacSha1, .rsaSha1].map SignatureMethod.word
  | keyType => KeyType.all.map KeyType.word
  | placement => Placement.all.map Placement.word
  | method => Method.all.map Method.name
  | persistence => TokenPersistence.all.map TokenPersistence.word
  | securityToken | tokenInfo | clientState => []

/-- The value of a document, in the form in which it is written. -/
def canonical? (t : DocumentType) (v : Value) : Option Value :=
  match t with
  | securityToken => (SecurityToken.ofJson? v).map SecurityToken.toJson
  | tokenInfo => (TokenInfo.ofJson? v).map TokenInfo.toJson
  | clientState => (ClientState.ofJson? v).map ClientState.toJson
  | choice => (v.word? choice.words).map Value.text

/-- A document, in the form in which it is written. -/
def canonicalText? (t : DocumentType) (text : String) : Option String :=
  ((parse? text).bind t.canonical?).map Value.render

end DocumentType
end DelegatedFetch
