/-
**The program.**

Reads the files that the arguments name, the settings and the time, lets the command line decide
what to do with them, and prints what it reports.

Main definitions:

* `main` — the entry point.
-/

import Std.Time.DateTime.Timestamp
import TriggerEngine.CommandLine

set_option autoImplicit false

namespace TriggerEngine.CommandLine

/-- Why an attempt to read a file failed. -/
def troubleOf : IO.Error → FileTrouble
  | .inappropriateType _ 20 _ => .blocked
  | .inappropriateType _ _ _ => .directory
  | .permissionDenied _ _ _ => .denied
  | .invalidArgument _ 36 _ => .tooLong
  | .noFileOrDirectory _ _ _ => .missing
  | .otherError code reason => .system code.toNat reason
  | .hardwareFault code reason => .system code.toNat reason
  | .resourceExhausted _ code reason => .system code.toNat reason
  | .resourceBusy code reason => .system code.toNat reason
  | .invalidArgument _ code reason => .system code.toNat reason
  | e => .system 5 (toString e)

/-- Reads a file. -/
def readFile (path : String) : IO (Except FileTrouble (List Nat)) := do
  try
    let bytes ← IO.FS.readBinFile path
    return .ok (bytes.toList.map UInt8.toNat)
  catch e => return .error (troubleOf e)

/-- The names of the settings. -/
def settingNames : List String :=
  ["TRIGSCRIPT_DEBUG", "TRIGSCRIPT_MAX_STEPS", "TRIGSCRIPT_MAX_DEPTH", "TRIGSCRIPT_TIMEOUT"]

/-- The settings that are there. -/
def readSettings : IO Settings := do
  let found ← settingNames.mapM fun name => do
    return (← IO.getEnv name).map fun v => (name, v)
  return found.filterMap id

/-- The time in seconds. -/
def readClock : IO Number := do
  let now ← Std.Time.Timestamp.now
  return .float (Float.ofInt now.toMillisecondsSinceUnixEpoch.val / 1000)

end TriggerEngine.CommandLine

/-- The entry point. -/
def main (args : List String) : IO UInt32 := do
  let loaded ← args.mapM fun path => do
    return (path, ← TriggerEngine.CommandLine.readFile path)
  let files : TriggerEngine.Files := fun path => (loaded.lookup path).getD (.error .missing)
  let settings ← TriggerEngine.CommandLine.readSettings
  let clock ← TriggerEngine.CommandLine.readClock
  let report := TriggerEngine.CommandLine.dispatch files settings clock args
  IO.print report.output
  IO.eprint report.errors
  match report.ending with
  | .ok code => return UInt32.ofNat code
  | .error fault =>
    IO.eprintln (fault.className ++ ": " ++ fault.message)
    return 1
