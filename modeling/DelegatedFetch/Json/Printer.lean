import DelegatedFetch.Json.Value
import DelegatedFetch.Text.Hex

/-!
# Writing JSON

Values are written without blanks, fields in order. In a text the quote, the
backslash and the control characters are escaped, five of those by a letter
and the others by four hexadecimal digits.
-/

namespace DelegatedFetch.Json

def escapeLetter? (c : Char) : Option Char :=
  if c = '\x08' then some 'b'
  else if c = '\t' then some 't'
  else if c = '\n' then some 'n'
  else if c = '\x0C' then some 'f'
  else if c = '\r' then some 'r'
  else none

def renderChar (c : Char) : List Char :=
  if c = '"' then ['\\', '"']
  else if c = '\\' then ['\\', '\\']
  else if c.toNat < 0x20 then
    match escapeLetter? c with
    | some l => ['\\', l]
    | none =>
      let b := UInt8.ofNat c.toNat
      ['\\', 'u', '0', '0', Hex.lowerDigit (b >>> 4), Hex.lowerDigit (b &&& 15)]
  else [c]

def renderText (s : String) : List Char := '"' :: s.toList.flatMap renderChar ++ ['"']

mutual

/-- A value without blanks. Cases that no record uses are written as null. -/
def Value.renderChars : Value → List Char
  | .null | .number | .brokenText | .brokenObject => "null".toList
  | .bool true => "true".toList
  | .bool false => "false".toList
  | .natural n => Nat.toDigits 10 n
  | .text s => renderText s
  | .array items => '[' :: renderItems items ++ [']']
  | .object fields => '\x7b' :: renderFields fields ++ ['\x7d']

def renderItems : List Value → List Char
  | [] => []
  | [v] => v.renderChars
  | v :: rest => v.renderChars ++ ',' :: renderItems rest

def renderFields : List (String × Value) → List Char
  | [] => []
  | [(name, v)] => renderText name ++ ':' :: v.renderChars
  | (name, v) :: rest => renderText name ++ ':' :: v.renderChars ++ ',' :: renderFields rest

end

def Value.render (v : Value) : String := String.ofList v.renderChars

end DelegatedFetch.Json
