import RealRoots.CommandLine.Session
import Std.Time.DateTime.Timestamp

/-!
# The program

Reads files, the clocks and a source of random bytes for a session, and prints its response.
-/

namespace RealRoots.CommandLine

/-- The number of the system's error for reading a directory. -/
def isDirectory : UInt32 := 21

/-- What a failure to read a file says of it. A file is also missing where something on the way to
it is not a directory. -/
def unread : IO.Error → ConfigFile
  | .noFileOrDirectory .. => .missing
  | .inappropriateType _ code details =>
    if code = isDirectory then .unreadable (details ++ " (os error " ++ toString code ++ ")")
    else .missing
  | .permissionDenied _ code details =>
    .unreadable (details ++ " (os error " ++ toString code ++ ")")
  | .userError _ => .unreadable "stream did not contain valid UTF-8"
  | e => .unreadable (toString e)

def findConfigFile (path : String) : IO ConfigFile := do
  try
    return .text (← IO.FS.readFile path)
  catch e =>
    return unread e

/-- A value, and the milliseconds that it took to compute it. -/
def stopwatch {α : Type} (compute : Unit → α) : IO (α × Float) := do
  let before ← IO.monoNanosNow
  let value ← IO.lazyPure compute
  let after ← IO.monoNanosNow
  return (value, (after - before).toFloat / 1000000)

/-- A random identifier and the current time. -/
def newIdentity : IO (Uuid × Timestamp) := do
  let bytes := (← IO.getRandomBytes (.ofNat 32)).toList.map UInt8.toNat
  let id := Uuid.random fun i => Uuid.lastDigit (bytes.getD i 0)
  let now ← Std.Time.Timestamp.now
  match Timestamp.ofNanoseconds? now.toNanosecondsSinceUnixEpoch.val with
  | some created => return (id, created)
  | none => throw (IO.userError "the clock is out of range")

def surroundings : Surroundings IO where
  configFile := findConfigFile
  timed := stopwatch
  identity := newIdentity

end RealRoots.CommandLine

def main (args : List String) : IO UInt32 := do
  let response ← RealRoots.CommandLine.Session.respond RealRoots.CommandLine.surroundings args
  response.output.forM IO.println
  response.errors.forM IO.eprintln
  return response.exitCode.toUInt32
