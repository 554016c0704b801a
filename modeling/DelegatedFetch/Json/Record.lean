import DelegatedFetch.Json.Value
import DelegatedFetch.Text.Decimal
import DelegatedFetch.Table

/-!
# Records in JSON

A record has named fields in a fixed order. It is given as an object, in any
order, unknown fields ignored and repeated ones refused, or as an array in
field order, where optional fields at the end may be left out. A choice among
words is given as the word, or as an object from the word to null.
-/

namespace DelegatedFetch.Json

namespace Value

def fieldsNamed (name : String) (fields : List (String × Value)) : List Value :=
  (fields.filter (·.1 == name)).map (·.2)

/-- The values of the named fields of a record, in the order of the names; none for a field that is
left out. -/
def fields? (names : List String) : Value → Option (List (Option Value))
  | .object fields =>
    names.mapM fun name =>
      match fieldsNamed name fields with
      | [] => some none
      | [v] => some (some v)
      | _ => none
  | .array items =>
    if items.length ≤ names.length then
      some (items.map some ++ List.replicate (names.length - items.length) none)
    else none
  | _ => none

def text? : Value → Option String
  | .text s => some s
  | _ => none

def uint64? : Value → Option UInt64
  | .natural n => Decimal.toUInt64? n
  | _ => none

def word? (words : List String) : Value → Option String
  | .text s | .object [(s, .null)] => if words.contains s then some s else none
  | _ => none

/-- The table of an object whose values are all readable; the last field of a name counts. -/
def table? {α : Type} (read : Value → Option α) : Value → Option (Table String α)
  | .object fields => do
    let entries ← fields.mapM fun (name, v) => (read v).map (name, ·)
    some (Table.ofList entries)
  | _ => none

end Value

def required? {α : Type} (read : Value → Option α) (field : Option Value) : Option α :=
  field.bind read

/-- The value of a field that may be absent or null. -/
def optional? {α : Type} (read : Value → Option α) : Option Value → Option (Option α)
  | none | some .null => some none
  | some v => (read v).map some

def defaulted? {α : Type} (default : α) (read : Value → Option α) : Option Value → Option α
  | none => some default
  | some v => read v

/-- Fields with one set, in its old place if it had one. -/
def setField (fields : List (String × Value)) (name : String) (v : Value) :
    List (String × Value) :=
  if fields.any (·.1 == name) then fields.map fun f => if f.1 = name then (name, v) else f
  else fields ++ [(name, v)]

/-- The value of a field; null if there is none. -/
def fieldValue (fields : List (String × Value)) (name : String) : Value :=
  ((fields.find? (·.1 == name)).map (·.2)).getD .null

mutual

/-- One value over another: objects are merged field by field, all else is replaced. -/
def merge (under : Value) : Value → Value
  | .object fields =>
    match under with
    | .object base => .object (mergeFields base fields)
    | _ => .object fields
  | v => v

def mergeFields (base : List (String × Value)) : List (String × Value) → List (String × Value)
  | [] => base
  | (name, v) :: rest =>
    mergeFields (setField base name (merge (fieldValue base name) v)) rest

end

/-- A field that is written only when it has a value. -/
def fieldOf (name : String) (v : Option Value) : List (String × Value) :=
  (v.map fun v => (name, v)).toList

end DelegatedFetch.Json
