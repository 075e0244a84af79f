import SoftwareCensus.Cli.Commands
import SoftwareCensus.Text.Timestamp
import Std.Time.DateTime.Timestamp

/-!
# The program

The only module that does anything: it asks for the time, reads files, and prints what
`Cli.respond` gives back. Which files that takes is known only from what it looks up, so it is asked
again until it looks up nothing that has not been read.
-/

namespace SoftwareCensus

open Cli Files

/-- The number of the system for a directory that is read like a file. -/
def directoryCode : UInt32 := 21

/-- What a path name leads to. -/
def readEntry (path : String) : IO Entry := do
  try
    let bytes ← IO.FS.readBinFile path
    match String.fromUTF8? bytes with
    | some content => return .text content
    | none => return .binary
  catch
    | .inappropriateType _ code _ =>
      return if code == directoryCode || code == 0 - directoryCode then .directory else .obstructed
    | _ => return .missing

/-- What path names lead to that have been read. -/
abbrev Seen := List (String × Entry)

/-- The view of path names that have been read; others lead to nothing. -/
def Seen.view (seen : Seen) : View := fun path =>
  match seen.find? (·.1 == path) with
  | some (_, e) => e
  | none => .missing

/-- Answers a command line, with as many rounds of reading files as it takes. -/
partial def settle (s : Surroundings) (words : List String) (seen : Seen) : IO Response := do
  let r := respond { s with files := Seen.view seen } words
  let missing := r.consulted.eraseDups.filter fun path => !seen.any (·.1 == path)
  if missing.isEmpty then return r
  let read ← missing.mapM fun path => return (path, ← readEntry path)
  settle s words (read ++ seen)

/-- The variables of the environment that the program looks at. -/
def watchedVariables : List String :=
  [Config.signaturesVariable, Config.runSettingsVariable, Config.directoryVariable,
    "XDG_CONFIG_HOME", "HOME", "RUST_LOG", "SWD_LOG", "SWD_LOG_FORMAT"]

/-- The number of levels of task lists inside task lists that this program makes room for. -/
def roomForLevels : Nat := 256

/-- Whether a command line asks for an inventory from standard input. -/
def readsInput (env : Config.Environment) (words : List String) : Bool :=
  match Invocation.read env words with
  | .ok i => match i.command with
    | .discover inventory _ _ _ _ _ => inventory == "-"
    | _ => false
  | .error _ => false

/-- What standard input has. -/
def readInput : IO (Except ReadFault String) := do
  let bytes ← (← IO.getStdin).readBinToEnd
  match String.fromUTF8? bytes with
  | some text => return .ok text
  | none => return .error .binary

/-- What surrounds this run. -/
def surroundings (words : List String) : IO Surroundings := do
  let found ← watchedVariables.filterMapM fun name =>
    return (← IO.getEnv name).map fun value => (name, value)
  let env (name : String) : Option String := (found.find? (·.1 == name)).map (·.2)
  let nanos := (← Std.Time.Timestamp.now).toNanosecondsSinceUnixEpoch.val
  let now := Timestamp.ofSeconds (nanos.fdiv Tasks.nanosPerSecond)
  let (date, time) := now.digits
  let bytes ← IO.getRandomBytes 4
  let number := bytes.toList.foldl (fun n b => n * 256 + b.toNat) 0
  let input ← if readsInput env words then readInput else pure (.ok "")
  return {
    env, userBase := Config.userBase? env none, files := fun _ => .missing, input
    runId := .make date time number, discoveryTime := now.discoveryForm
    timestamp := now.universalForm (nanos.fmod Tasks.nanosPerSecond / 1000).toNat
    colored := ← (← IO.getStderr).isTty, levels := roomForLevels }

end SoftwareCensus

open SoftwareCensus in
/-- Runs the program. -/
def main (words : List String) : IO UInt32 := do
  let r ← settle (← surroundings words) words []
  for line in r.log do IO.eprintln line
  IO.eprint r.errors
  IO.print r.output
  return r.code.toUInt32
