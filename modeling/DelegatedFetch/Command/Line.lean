import DelegatedFetch.Settings.Environment

/-!
# The command line

Options begin with one or two dashes and take a value, in the same word or in
the next one; after two dashes alone nothing is an option any more. Options of
the program may stand before the command or after it. Some options have a
value from the environment when they are not given. A line that does not fit
is a usage error; asking for help or for the version is none.
-/

namespace DelegatedFetch.Command

/-- An option, by its names. `variable` names the variable that stands in for it. -/
structure OptionSpec where
  long : String
  short : Option Char
  variable_ : Option String
  emptyAllowed : Bool
  deriving DecidableEq, Repr

/-- A command, by its name, with its options and how many words it takes besides. -/
structure CommandSpec where
  name : String
  options : List OptionSpec
  words : Nat
  deriving DecidableEq, Repr

def configOption : OptionSpec := ⟨"config", some 'c', some "GADGET_OAUTH_CONFIG", false⟩

def programOptions : List OptionSpec :=
  [configOption, ⟨"log-level", none, some "GADGET_OAUTH_LOG_LEVEL", true⟩,
   ⟨"log-format", none, some "GADGET_OAUTH_LOG_FORMAT", true⟩]

def methodOption : OptionSpec := ⟨"method", some 'X', none, true⟩
def consumerKeyOption : OptionSpec :=
  ⟨"consumer-key", none, some "GADGET_OAUTH_CONSUMER_KEY", true⟩
def consumerSecretOption : OptionSpec :=
  ⟨"consumer-secret", none, some "GADGET_OAUTH_CONSUMER_SECRET", true⟩
def rsaKeyOption : OptionSpec := ⟨"rsa-key", none, none, false⟩
def tokenOption : OptionSpec := ⟨"token", none, none, true⟩
def tokenSecretOption : OptionSpec := ⟨"token-secret", none, none, true⟩
def locationOption : OptionSpec := ⟨"location", none, none, true⟩
def dataOption : OptionSpec := ⟨"data", some 'd', none, true⟩

def signSpec : CommandSpec where
  name := "sign"
  options := [methodOption, consumerKeyOption, consumerSecretOption, rsaKeyOption, tokenOption,
    tokenSecretOption, locationOption, dataOption]
  words := 1

def checkSpec : CommandSpec := ⟨"check-config", [], 0⟩
def inspectSpec : CommandSpec := ⟨"inspect-state", [], 1⟩
def generateSpec : CommandSpec := ⟨"generate-key", [], 0⟩

def commandSpecs : List CommandSpec := [signSpec, checkSpec, inspectSpec, generateSpec]

/-- Why a line runs no command. -/
inductive Stop where
  | usage
  | help
  | version
  deriving DecidableEq, Repr

/-- What a line gives: the values of options, by their long names, and the words besides. -/
structure Given where
  values : List (String × String) := []
  words : List String := []
  deriving DecidableEq, Repr

/-- What one word of a line is. -/
inductive Word where
  /-- Two dashes alone. -/
  | terminator
  | long (name : String) (value : Option String)
  | short (name : Char) (rest : List Char)
  | plain (text : String)
  deriving DecidableEq, Repr

def dropEquals : List Char → List Char
  | '=' :: cs => cs
  | cs => cs

def Word.of (text : String) : Word :=
  match text.toList with
  | ['-', '-'] => terminator
  | '-' :: '-' :: cs =>
    match cs.dropWhile (· != '=') with
    | _ :: value => long (String.ofList (cs.takeWhile (· != '='))) (some (String.ofList value))
    | [] => long (String.ofList cs) none
  | '-' :: c :: cs => short c cs
  | _ => plain text

/-- A word that can be the value of an option that stands before it. -/
def isValue (text : String) : Bool :=
  match Word.of text with
  | .plain _ => true
  | _ => false

/-- The words of a line with one more value. An option is given once, and some not empty. -/
def Given.add (g : Given) (o : OptionSpec) (value : String) : Except Stop Given :=
  if g.values.any (·.1 == o.long) || (value == "" && !o.emptyAllowed) then .error .usage
  else .ok { g with values := g.values ++ [(o.long, value)] }

/-- The value of an option: the one in its own word, or else the next word; and the words that are
left. -/
def takeValue (own : Option String) (rest : List String) : Except Stop (String × List String) :=
  match own, rest with
  | some v, rest => .ok (v, rest)
  | none, v :: rest => if isValue v then .ok (v, rest) else .error .usage
  | none, [] => .error .usage

/-- Reads words up to the end, or up to the first plain word if `toCommand`. The third part is what
is left, beginning with that word. -/
def readWords (options : List OptionSpec) (toCommand : Bool) :
    Nat → Given → List String → Except Stop (Given × List String)
  | 0, _, _ => .error .usage
  | _ + 1, g, [] => .ok (g, [])
  | fuel + 1, g, w :: rest =>
    match Word.of w with
    | .terminator => .ok ({ g with words := g.words ++ rest }, [])
    | .plain text =>
      if toCommand then .ok (g, w :: rest)
      else readWords options toCommand fuel { g with words := g.words ++ [text] } rest
    | .long name own =>
      if name = "help" ∧ own = none then .error .help
      else if name = "version" ∧ own = none ∧ toCommand then .error .version
      else
        match options.find? (·.long == name) with
        | none => .error .usage
        | some o => do
          let (v, rest) ← takeValue own rest
          readWords options toCommand fuel (← g.add o v) rest
    | .short c cs =>
      if c = 'h' then .error .help
      else if c = 'V' ∧ toCommand then .error .version
      else
        match options.find? (·.short == some c) with
        | none => .error .usage
        | some o => do
          let own := if cs = [] then none else some (String.ofList (dropEquals cs))
          let (v, rest) ← takeValue own rest
          readWords options toCommand fuel (← g.add o v) rest

/-- A command with the values of its options, from the line or from the environment, and its other
words. -/
structure Line where
  command : CommandSpec
  values : List (String × String)
  words : List String
  deriving DecidableEq, Repr

def Line.value? (l : Line) (o : OptionSpec) : Option String := l.values.lookup o.long

def fromEnvironment? (env : Environment) (o : OptionSpec) : Option (String × String) := do
  some (o.long, ← env.find? (← o.variable_))

/-- Which options must or must not go together. -/
def fits (l : Line) : Bool :=
  let has (o : OptionSpec) := (l.value? o).isSome
  let signs := l.command = signSpec
  l.words.length == l.command.words &&
    (!signs || has consumerKeyOption) &&
    !(has consumerSecretOption && has rsaKeyOption) &&
    (!has tokenSecretOption || has tokenOption) &&
    (l.value? configOption != some "")

def Line.parse (env : Environment) (args : List String) : Except Stop Line := do
  let (before, rest) ← readWords programOptions true (args.length + 1) {} args
  match rest with
  | [] => .error .usage
  | name :: rest =>
    match commandSpecs.find? (·.name == name) with
    | none => .error (if name = "help" then .help else .usage)
    | some command => do
      let options := command.options ++ programOptions
      let (after, _) ← readWords options false (rest.length + 1) {} rest
      let line : Line :=
        ⟨command, after.values ++ before.values ++ options.filterMap (fromEnvironment? env),
          after.words⟩
      if fits line then .ok line else .error .usage

end DelegatedFetch.Command
