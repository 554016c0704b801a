import DelegatedFetch.Json.Record
import DelegatedFetch.Settings.Environment
import DelegatedFetch.Text.Blank
import DelegatedFetch.Text.Hex
import DelegatedFetch.Text.Numeral
import DelegatedFetch.Text.Split

/-!
# Settings in variables

A variable whose name begins with `GADGET_OAUTH_` gives a setting; two
underscores in the rest of the name lead into a section. The value is read as
true or false, a number, a quoted text, a list in brackets or a section in
braces; whatever is none of these is a text as it stands.
-/

namespace DelegatedFetch.Variable

open Json

def isSpace (c : Char) : Bool := c == ' ' || c == '\t' || c == '\n' || c == '\x0c' || c == '\r'

def isSeparator (c : Char) : Bool :=
  c == ',' || c == '{' || c == '}' || c == '[' || c == ']'

def isNameChar (c : Char) : Bool := c.isAlphanum || c == '_' || c == '-'

/-- The bare value of a text: a number, or the text without blanks around it. -/
def bare (cs : List Char) : Value :=
  let cs := strip isBlank cs
  let text := Value.text (String.ofList cs)
  if cs.contains '.' && Numeral.isNumeral cs then .number
  else
    match cs with
    | '-' :: digits =>
      match Decimal.digits? digits with
      | some 0 => .natural 0
      | some n => if n ≤ UInt64.size / 2 then .number else text
      | none => text
    | '+' :: digits | digits =>
      match (Decimal.digits? digits).bind Decimal.toUInt64? with
      | some n => .natural n.toNat
      | none => text

def escape? : List Char → Option (Char × List Char)
  | '"' :: cs => some ('"', cs)
  | '\\' :: cs => some ('\\', cs)
  | 'b' :: cs => some ('\x08', cs)
  | 'f' :: cs => some ('\x0c', cs)
  | 'n' :: cs => some ('\n', cs)
  | 'r' :: cs => some ('\r', cs)
  | 't' :: cs => some ('\t', cs)
  | 'u' :: cs => Hex.codeChar? 4 cs
  | 'U' :: cs => Hex.codeChar? 8 cs
  | _ => none

def isQuotable (c : Char) : Bool := c == '\t' || (0x20 ≤ c.toNat && c.toNat != 0x7F)

/-- The characters up to the closing quote, and what follows it. -/
def quoted? : Nat → List Char → Option (List Char × List Char)
  | 0, _ | _, [] => none
  | fuel + 1, c :: cs =>
    if c = '"' then some ([], cs)
    else if c = '\\' then do
      let (d, cs) ← escape? cs
      let (ds, cs) ← quoted? fuel cs
      some (d :: ds, cs)
    else if isQuotable c then (quoted? fuel cs).map fun (ds, cs) => (c :: ds, cs)
    else none

def quotedText? : List Char → Option (String × List Char)
  | '"' :: cs => (quoted? (cs.length + 1) cs).map fun (ds, cs) => (String.ofList ds, cs)
  | _ => none

def name? (cs : List Char) : Option (String × List Char) :=
  quotedText? cs <|>
    if cs.takeWhile isNameChar = [] then none
    else some (String.ofList (cs.takeWhile isNameChar), cs.dropWhile isNameChar)

def after? (word : String) (cs : List Char) : Option (List Char) :=
  if word.toList.isPrefixOf cs then some (cs.drop word.length) else none

def skip (cs : List Char) : List Char := cs.dropWhile isSpace

mutual

/-- The value at the front, and the rest. -/
def value? : Nat → List Char → Option (Value × List Char)
  | 0, _ => none
  | fuel + 1, cs =>
    let cs := skip cs
    let result : Option (Value × List Char) := match after? "true" cs, after? "false" cs with
      | some rest, _ => some (.bool true, rest)
      | _, some rest => some (.bool false, rest)
      | none, none =>
        match cs with
        | '{' :: rest => (fields? fuel [] rest).map fun (fs, rest) => (.object fs, rest)
        | '[' :: rest => (items? fuel rest).map fun (vs, rest) => (.array vs, rest)
        | '"' :: _ => (quotedText? cs).map fun (s, rest) => (.text s, rest)
        | '\'' :: c :: '\'' :: rest => some (.text (String.singleton c), rest)
        | '\'' :: _ => none
        | _ =>
          some (bare (cs.takeWhile (!isSeparator ·)), cs.dropWhile (!isSeparator ·))
    result.map fun (v, rest) => (v, skip rest)

/-- The items up to a closing bracket, and what follows it. -/
def items? : Nat → List Char → Option (List Value × List Char)
  | 0, _ => none
  | fuel + 1, cs =>
    match skip cs with
    | ']' :: rest => some ([], rest)
    | cs => do
      let (v, rest) ← value? fuel cs
      match rest with
      | ',' :: rest => (items? fuel rest).map fun (vs, rest) => (v :: vs, rest)
      | ']' :: rest => some ([v], rest)
      | _ => none

def fields? : Nat → List (String × Value) → List Char →
    Option (List (String × Value) × List Char)
  | 0, _, _ => none
  | fuel + 1, done, cs =>
    match skip cs with
    | '}' :: rest => some (done, rest)
    | cs => do
      let (name, rest) ← name? cs
      match skip rest with
      | '=' :: rest =>
        let (v, rest) ← value? fuel rest
        let done := setField done name v
        match rest with
        | ',' :: rest => fields? fuel done rest
        | '}' :: rest => some (done, rest)
        | _ => none
      | _ => none

end

def read (s : String) : Value :=
  match value? (2 * s.length + 2) s.toList with
  | some (v, []) => v
  | _ => .text s

/-- What the names of variables for settings begin with. -/
def opening : String := "GADGET_OAUTH_"

/-- Two underscores as one point. -/
def pointed : List Char → List Char
  | '_' :: '_' :: cs => '.' :: pointed cs
  | c :: cs => c :: pointed cs
  | [] => []

/-- The sections that the name of a variable leads through, if it is one for settings. -/
def path? (name : String) : Option (List String) :=
  let lower := name.toLower.toList
  if opening.toLower.toList.isPrefixOf lower then
    match (pieces (· == '.') (pointed (lower.drop opening.length))).takeWhile (· != []) with
    | [] => none
    | path => some (path.map String.ofList)
  else none

/-- A value at the end of a path of sections. -/
def nest (v : Value) : List String → Value
  | [] => v
  | name :: path => .object [(name, nest v path)]

def settings (env : Environment) : Value :=
  env.entries.foldl (fun v (name, text) =>
    match path? name with
    | some path => merge v (nest (read text) path)
    | none => v) (.object [])

end DelegatedFetch.Variable
