import DelegatedFetch.Json.Record
import DelegatedFetch.Text.Blank
import DelegatedFetch.Text.Hex
import DelegatedFetch.Text.Numeral
import DelegatedFetch.Text.Split

/-!
# Block documents in YAML

The part of YAML that settings are written in: block mappings and block lists,
nested by indentation, with plain and quoted scalars. A plain scalar is null,
true or false, a number or else a text; a quoted one is always a text.
Flow collections are read when they are empty. Whatever is neither of these is
refused.
-/

namespace DelegatedFetch.Yaml

open Json

/-- A line with what stands in it after the indentation. -/
structure Line where
  indent : Nat
  text : List Char
  deriving DecidableEq, Repr

def isSpace (c : Char) : Bool := c == ' ' || c == '\t'

def nullWords : List String := ["", "null", "Null", "NULL", "~"]
def trueWords : List String := ["true", "True", "TRUE"]
def falseWords : List String := ["false", "False", "FALSE"]
/-- The words for numbers that are none of the usual ones. -/
def otherNumberWords : List String :=
  [".inf", ".Inf", ".INF", "-.inf", "-.Inf", "-.INF", ".nan", ".NaN", ".NAN"]

def hasNeedlessZero (cs : List Char) : Bool :=
  cs.length > 1 && cs.head? == some '0' && cs.all Char.isDigit

def ofDigits? (base : Nat) (cs : List Char) : Option Nat :=
  if cs = [] then none
  else cs.foldlM (fun n c => do
    let d ← Hex.charValue? c
    if d.toNat < base then some (n * base + d.toNat) else none) 0

/-- The whole number that a text without sign writes, in base ten or as its beginning says. -/
def natural? : List Char → Option Nat
  | '0' :: 'x' :: cs => ofDigits? 16 cs
  | '0' :: 'o' :: cs => ofDigits? 8 cs
  | '0' :: 'b' :: cs => ofDigits? 2 cs
  | cs => if hasNeedlessZero cs then none else ofDigits? 10 cs

def plain (cs : List Char) : Value :=
  let s := String.ofList cs
  if nullWords.contains s then .null
  else if trueWords.contains s then .bool true
  else if falseWords.contains s then .bool false
  else if otherNumberWords.contains s then .number
  else
    let unsigned := match cs with
      | '+' :: rest => rest
      | _ => cs
    let negative := match cs with
      | '-' :: rest => natural? rest
      | _ => none
    match natural? unsigned, negative with
    | some n, _ => .natural n
    | none, some 0 => .natural 0
    | none, some _ => .number
    | none, none =>
      if !hasNeedlessZero (Numeral.dropSign cs) && Numeral.isFiniteNumeral cs then .number
      else .text s

/-- The characters that one character after a backslash stands for. -/
def escapes : List (Char × Char) :=
  [('0', '\x00'), ('a', '\x07'), ('b', '\x08'), ('t', '\t'), ('\t', '\t'), ('n', '\n'),
   ('v', '\x0b'), ('f', '\x0c'), ('r', '\r'), ('e', '\x1b'), (' ', ' '), ('"', '"'), ('/', '/'),
   ('\\', '\\'), ('N', '\u0085'), ('_', '\u00a0'), ('L', '\u2028'), ('P', '\u2029')]

def escape? : List Char → Option (Char × List Char)
  | 'x' :: cs => Hex.codeChar? 2 cs
  | 'u' :: cs => Hex.codeChar? 4 cs
  | 'U' :: cs => Hex.codeChar? 8 cs
  | c :: cs => (escapes.lookup c).map (·, cs)
  | [] => none

/-- The characters up to the closing double quote, and what follows it. -/
def doubleQuoted? : Nat → List Char → Option (List Char × List Char)
  | 0, _ | _, [] => none
  | fuel + 1, c :: cs =>
    if c = '"' then some ([], cs)
    else if c = '\\' then do
      let (d, cs) ← escape? cs
      let (ds, cs) ← doubleQuoted? fuel cs
      some (d :: ds, cs)
    else (doubleQuoted? fuel cs).map fun (ds, cs) => (c :: ds, cs)

/-- The characters up to the closing single quote, and what follows it; two quotes stand for one. -/
def singleQuoted? : List Char → Option (List Char × List Char)
  | '\'' :: '\'' :: cs => (singleQuoted? cs).map fun (ds, cs) => ('\'' :: ds, cs)
  | '\'' :: cs => some ([], cs)
  | c :: cs => (singleQuoted? cs).map fun (ds, cs) => (c :: ds, cs)
  | [] => none

def quoted? : List Char → Option (List Char × List Char)
  | '"' :: cs => doubleQuoted? (cs.length + 1) cs
  | '\'' :: cs => singleQuoted? cs
  | _ => none

/-- Nothing but blanks and a comment. -/
def isEmptyTail (cs : List Char) : Bool :=
  match cs.dropWhile isSpace with
  | [] => true
  | c :: _ => c == '#' && cs.head?.any isSpace

/-- A text up to a comment, and without blanks at its end. -/
def dropComment : List Char → List Char
  | [] => []
  | c :: cs =>
    if isSpace c then
      match cs.dropWhile isSpace with
      | [] => []
      | d :: _ => if d = '#' then [] else c :: dropComment cs
    else c :: dropComment cs

/-- The text before and after the first colon that a blank follows, or the end. -/
def cutColon? : List Char → Option (List Char × List Char)
  | [] => none
  | c :: cs =>
    if c = ':' ∧ (cs = [] ∨ cs.head?.any isSpace) then some ([], cs)
    else (cutColon? cs).map fun (before, after) => (c :: before, after)

/-- A character that a plain scalar does not begin with. -/
def isIndicator (c : Char) : Bool :=
  c ∈ [',', '[', ']', '{', '}', '#', '&', '*', '!', '|', '>', '\'', '"', '%', '@', Char.ofNat 96]

/-- A character that begins a plain scalar only if no blank follows it. -/
def isWeakIndicator (c : Char) : Bool := c == '-' || c == '?' || c == ':'

def beginsPlain : List Char → Bool
  | [] => false
  | c :: cs => !isIndicator c && !(isWeakIndicator c && (cs.isEmpty || cs.head?.any isSpace))

/-- The key at the front of a line, and what follows its colon. -/
def cutKey? (cs : List Char) : Option (String × List Char) :=
  match quoted? cs with
  | some (key, rest) =>
    match rest.dropWhile isSpace with
    | ':' :: after =>
      if after.isEmpty || after.head?.any isSpace then some (String.ofList key, after) else none
    | _ => none
  | none =>
    if beginsPlain cs then
      match cutColon? (dropComment cs) with
      | some (key, after) => some (String.ofList (strip isSpace key), after)
      | none => none
    else none

/-- The item at the front of a line of a list, with its blanks in front. -/
def cutDash? : List Char → Option (List Char)
  | '-' :: cs => if cs.isEmpty || cs.head?.any isSpace then some cs else none
  | _ => none

/-- The lines of a text that say something. A tab does not indent. -/
def lines? (cs : List Char) : Option (List Line) :=
  let lines := (pieces (· == '\n') (cs.filter (· != '\r'))).map fun line =>
    ⟨(line.takeWhile (· == ' ')).length, line.dropWhile (· == ' ')⟩
  let lines := lines.filter fun (l : Line) =>
    match l.text.dropWhile isSpace with
    | [] => false
    | c :: _ => c != '#'
  if lines.any fun l => l.text.head? == some '\t' then none else some lines

def dropStart : List Line → List Line
  | ⟨0, text⟩ :: rest => if dropComment text = "---".toList then rest else ⟨0, text⟩ :: rest
  | lines => lines

/-- The lines that continue a plain scalar: those that are indented deeper. -/
def cutContinuation (indent : Nat) (lines : List Line) : List Line × List Line :=
  lines.span fun l => indent < l.indent

/-- A scalar in a line, and the lines after it. `indent` is that of the line's own mapping or
list. -/
def scalar? (indent : Nat) (cs : List Char) (rest : List Line) : Option (Value × List Line) :=
  let cs := cs.dropWhile isSpace
  match quoted? cs with
  | some (text, tail) =>
    if isEmptyTail tail then some (.text (String.ofList text), rest) else none
  | none =>
    let body := dropComment cs
    if body = "[]".toList then some (.array [], rest)
    else if body = ['{', '}'] then some (.object [], rest)
    else if beginsPlain cs then
      let (more, rest) := cutContinuation indent rest
      let parts := body :: more.map fun l => dropComment l.text
      if parts.any fun p => (cutColon? p).isSome then none
      else some (plain (List.intercalate [' '] parts), rest)
    else none

mutual

/-- The node that begins at the front line, if that is indented at least so far; null if not. -/
def node? : Nat → Nat → List Line → Option (Value × List Line)
  | 0, _, _ => none
  | _ + 1, _, [] => some (.null, [])
  | fuel + 1, least, l :: rest =>
    if l.indent < least then some (.null, l :: rest)
    else if (cutDash? l.text).isSome then
      (items? fuel l.indent (l :: rest)).map fun (vs, rest) => (.array vs, rest)
    else if (cutKey? l.text).isSome then
      (fields? fuel l.indent [] (l :: rest)).map fun (fs, rest) => (.object fs, rest)
    else scalar? (least - 1) l.text rest

def items? : Nat → Nat → List Line → Option (List Value × List Line)
  | 0, _, _ => none
  | _ + 1, _, [] => some ([], [])
  | fuel + 1, indent, l :: rest =>
    if l.indent < indent then some ([], l :: rest)
    else if l.indent > indent then none
    else
      match cutDash? l.text with
      | none => some ([], l :: rest)
      | some item => do
        let inner := item.dropWhile isSpace
        let (v, rest) ←
          if isEmptyTail item then node? fuel (indent + 1) rest
          else
            node? fuel (indent + 1) (⟨indent + 1 + (item.length - inner.length), inner⟩ :: rest)
        let (vs, rest) ← items? fuel indent rest
        some (v :: vs, rest)

/-- The fields of a mapping at an indentation. The last field of a name counts. -/
def fields? : Nat → Nat → List (String × Value) → List Line →
    Option (List (String × Value) × List Line)
  | 0, _, _, _ => none
  | _ + 1, _, done, [] => some (done, [])
  | fuel + 1, indent, done, l :: rest =>
    if l.indent < indent then some (done, l :: rest)
    else if l.indent > indent then none
    else
      match cutKey? l.text with
      | none => if (cutDash? l.text).isSome then some (done, l :: rest) else none
      | some (key, after) => do
        let (v, rest) ←
          if isEmptyTail after then
            let isList := rest.head?.any fun l => l.indent == indent && (cutDash? l.text).isSome
            node? fuel (if isList then indent else indent + 1) rest
          else scalar? indent after rest
        fields? fuel indent (setField done key v) rest

end

/-- The value of a document; an empty document is an empty mapping. -/
def parse? (text : String) : Option Value := do
  match dropStart (← lines? text.toList) with
  | [] => some (.object [])
  | lines =>
    match ← node? (2 * text.length + 2 * lines.length + 4) 0 lines with
    | (v, []) => some v
    | _ => none

end DelegatedFetch.Yaml
