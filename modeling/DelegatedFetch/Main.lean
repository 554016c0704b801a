import DelegatedFetch.Command.Run
import Std.Time.DateTime.Timestamp

/-!
# The program

Takes in the command line, the environment, the clock, random bytes and files,
runs the command, and prints what it has to print. A usage error ends with
code two, any other error with code one.
-/

namespace DelegatedFetch.Program

def readFile (path : String) : IO (Except ReadError String) := do
  try
    match Utf8.decode? (← IO.FS.readBinFile path).toList with
    | some text => return .ok text
    | none => return .error .notText
  catch
    | .noFileOrDirectory _ _ _ => return .error .missing
    | .inappropriateType _ _ _ => return .error .directory
    | e => return .error (.other (toString e))

def environment : IO Environment := do
  let raw ← IO.FS.readBinFile "/proc/self/environ"
  let entries := (pieces (· == 0) raw.toList).filterMap Utf8.decode?
  return Table.ofList (entries.filterMap fun e =>
    (cut? (· == '=') e.toList).map fun (name, value) => (String.ofList name, String.ofList value))

def clock : IO Clock := do
  let wall ← Std.Time.Timestamp.now
  return ⟨wall.toMillisecondsSinceUnixEpoch.val, ← IO.monoMsNow⟩

/-- Enough random bytes for one command. -/
def entropy : IO Entropy := do
  let bytes ← IO.getRandomBytes 32
  return ⟨fun i => bytes.toList.getD i 0, 0⟩

/-- What is printed when a line runs no command, and the code that the program ends with. -/
def explain : Command.Stop → String × UInt32
  | .usage => ("error: the command line cannot be used, try --help", 2)
  | .help => ("Usage: gadget-oauth [OPTIONS] <sign|check-config|inspect-state|generate-key>", 0)
  | .version => ("gadget-oauth 0.1.0", 0)

def run (args : List String) : IO UInt32 := do
  let env ← environment
  match Command.Line.parse env args with
  | .error stop =>
    let (text, code) := explain stop
    if code = 0 then IO.println text else IO.eprintln text
    return code
  | .ok line =>
    let outcome ← line.run readFile env (← clock) (← entropy)
    IO.print outcome.printed
    match outcome.error with
    | none => return 0
    | some e =>
      IO.eprintln ("❌ " ++ e.message)
      return 1

end DelegatedFetch.Program

def main (args : List String) : IO UInt32 := DelegatedFetch.Program.run args
