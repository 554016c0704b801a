import DelegatedFetch.Settings.Environment
import DelegatedFetch.Text.Split
import DelegatedFetch.Text.Blank

/-!
# Environment files

A file sets variables, `NAME=value` on each line, with `export` before the
name or not. Values may be in single quotes, which keep everything, or in
double quotes, which keep blanks; a quoted value may go over several lines.
`$NAME` and, in braces, `${NAME}` bring in other variables. A comment begins
after a blank. A variable that is set already is not set again. Reading stops
at the first line that is malformed; what came before it stays.
-/

namespace DelegatedFetch.EnvironmentFile

/-- Where in a line a reader is. -/
inductive Position where
  | complete
  | blank
  | escape
  | double
  | doubleEscape
  | single
  | singleEscape
  | comment
  deriving DecidableEq, Repr

/-- What a quote, an escape or another character outside quotes leads to. -/
def Position.opened (c : Char) : Position :=
  if c = '\\' then escape else if c = '"' then double else if c = '\'' then single else complete

def Position.next (c : Char) : Position → Position
  | complete => if isBlank c && c != '\n' && c != '\r' then blank else opened c
  | blank => if c = '#' then comment else opened c
  | escape => complete
  | double => if c = '\\' then doubleEscape else if c = '"' then complete else double
  | doubleEscape => double
  | single => if c = '\\' then singleEscape else if c = '\'' then complete else single
  | singleEscape => single
  | comment => comment

/-- The position at the end of a line, and the line up to a comment. -/
def scan : Position → List Char → Position × List Char
  | p, [] => (p, [])
  | p, c :: cs =>
    match p.next c with
    | .comment => (.comment, [])
    | p =>
      let (last, kept) := scan p cs
      (last, c :: kept)

/-- A text as lines that keep their ends. -/
def physicalLines : List Char → List (List Char)
  | [] => []
  | c :: cs =>
    if c = '\n' then [c] :: physicalLines cs
    else match physicalLines cs with
      | [] => [[c]]
      | line :: lines => (c :: line) :: lines

def isComment (line : List Char) : Bool := (line.dropWhile isBlank).head? == some '#'

/-- The lines that quotes hold together, comments left out. The last one is missing if the text ends
inside quotes or after a blank. -/
def logicalLines : Position → List Char → List (List Char) → List (Option (List Char))
  | .complete, _, [] => []
  | _, _, [] => [none]
  | p, begun, line :: rest =>
    if isComment (begun ++ line) then some [] :: logicalLines .complete [] rest
    else
      match scan p line with
      | (.comment, kept) | (.complete, kept) =>
        some (begun ++ kept) :: logicalLines .complete [] rest
      | (p, _) => logicalLines p (begun ++ line) rest

/-- Where in a value a reader is; `quoted` tells whether double quotes are open. -/
inductive ValueMode where
  | text (quoted : Bool)
  | escaped (quoted : Bool)
  | single
  | name (quoted : Bool) (begun : List Char)
  | braced (quoted : Bool) (begun : List Char)
  | ended
  deriving DecidableEq, Repr

def escapedChar? (c : Char) : Option Char :=
  if c = '\\' ∨ c = '\'' ∨ c = '"' ∨ c = '$' ∨ c = ' ' then some c
  else if c = 'n' then some '\n' else none

/-- The value that a text writes, if its quotes and braces are closed and nothing follows it. -/
def valueChars? (resolve : List Char → List Char) : ValueMode → List Char → Option (List Char)
  | .text quoted, [] | .escaped quoted, [] => if quoted then none else some []
  | .single, [] | .braced _ _, [] => none
  | .name quoted begun, [] => if quoted then none else some (resolve begun)
  | .ended, [] => some []
  | .ended, c :: cs =>
    if c = ' ' ∨ c = '\t' then valueChars? resolve .ended cs
    else if c = '#' then some [] else none
  | .escaped quoted, c :: cs => do
    return (← escapedChar? c) :: (← valueChars? resolve (.text quoted) cs)
  | .single, c :: cs =>
    if c = '\'' then valueChars? resolve (.text false) cs
    else (valueChars? resolve .single cs).map (c :: ·)
  | .name quoted begun, c :: cs =>
    if c.isAlphanum then valueChars? resolve (.name quoted (begun ++ [c])) cs
    else if c = '{' ∧ begun = [] then valueChars? resolve (.braced quoted []) cs
    else if c = '$' then (valueChars? resolve (.name quoted []) cs).map (resolve begun ++ ·)
    else (valueChars? resolve (.text quoted) cs).map (resolve begun ++ c :: ·)
  | .braced quoted begun, c :: cs =>
    if c = '}' then (valueChars? resolve (.text quoted) cs).map (resolve begun ++ ·)
    else valueChars? resolve (.braced quoted (begun ++ [c])) cs
  | .text quoted, c :: cs =>
    if c = '$' then valueChars? resolve (.name quoted []) cs
    else if c = '"' then valueChars? resolve (.text (!quoted)) cs
    else if c = '\\' then valueChars? resolve (.escaped quoted) cs
    else if c = '\'' ∧ !quoted then valueChars? resolve .single cs
    else if (c = ' ' ∨ c = '\t') ∧ !quoted then valueChars? resolve .ended cs
    else (valueChars? resolve (.text quoted) cs).map (c :: ·)

def isNameChar (c : Char) : Bool := c.isAlphanum || c == '_' || c == '.'

/-- The name at the front of a line, and what follows it and blanks. -/
def cutName? : List Char → Option (String × List Char)
  | c :: cs =>
    if c.isAlpha || c == '_' then
      let rest := (cs.dropWhile isNameChar).dropWhile isBlank
      some (String.ofList (c :: cs.takeWhile isNameChar), rest)
    else none
  | [] => none

def afterEquals? : List Char → Option (List Char)
  | '=' :: cs => some cs
  | _ => none

def cutAssignment? (line : List Char) : Option (String × List Char) := do
  let (name, rest) ← cutName? line
  match afterEquals? rest with
  | some value => some (name, value)
  | none =>
    if name = "export" then
      let (name, rest) ← cutName? rest
      some (name, ← afterEquals? rest)
    else none

/-- What a line says: nothing, or an assignment. -/
def assignment? (env : Environment) (line : List Char) : Option (Option (String × String)) :=
  let line := strip isBlank line
  if line.isEmpty || isComment line then some none
  else do
    let (name, value) ← cutAssignment? line
    let value := value.dropWhile isBlank
    if isComment value then some (some (name, ""))
    else
      let resolve := fun name => ((env.find? (String.ofList name)).getD "").toList
      some (some (name, String.ofList (← valueChars? resolve (.text false) value)))

def loadLines (env : Environment) : List (Option (List Char)) → Environment
  | some line :: rest =>
    match assignment? env line with
    | some (some var) => loadLines (env.setMissing [var]) rest
    | some none => loadLines env rest
    | none => env
  | _ => env

/-- A text without the mark that may tell its encoding. -/
def dropMark : List Char → List Char
  | '\uFEFF' :: cs => cs
  | cs => cs

def load (env : Environment) (text : String) : Environment :=
  loadLines env (logicalLines .complete [] (physicalLines (dropMark text.toList)))

end DelegatedFetch.EnvironmentFile
