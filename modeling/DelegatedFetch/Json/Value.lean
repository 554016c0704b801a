/-!
# JSON values

A value as it is read, before it is taken as a record. Objects keep their
fields in order, repeated ones too. Three cases stand for what no record uses
but a document may hold: numbers other than plain naturals, texts with half a
surrogate pair, and objects with such a text for a name.
-/

namespace DelegatedFetch.Json

inductive Value where
  | null
  | bool (b : Bool)
  | natural (n : Nat)
  | number
  | text (s : String)
  | brokenText
  | array (items : List Value)
  | object (fields : List (String × Value))
  | brokenObject
  deriving Inhabited

end DelegatedFetch.Json
