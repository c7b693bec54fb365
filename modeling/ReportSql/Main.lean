import ReportSql.CommandLine.Run
import Std.Time.DateTime.Timestamp

/-!
# The program

Carries out the command line in the world outside.
-/

namespace ReportSql.Main

open ReportSql.CommandLine

/-- The reason that reading a file failed. -/
def faultOf : IO.Error → FileFault
  | .noFileOrDirectory _ _ _ => .missing
  | .inappropriateType _ code _ => if code = 20 then .notDirectory else .isDirectory
  | .permissionDenied _ _ _ => .denied
  | _ => .notText

/-- The text of a file. -/
def readFile (path : String) : IO (Except FileFault String) := do
  try
    return .ok (← IO.FS.readFile path)
  catch e =>
    return .error (faultOf e)

/-- The present moment; the start of 1970 if the clock shows none that there is. -/
def now : IO Time.Instant := do
  let t ← Std.Time.Timestamp.now
  let nanos : Int := t.toNanosecondsSinceUnixEpoch.val
  let start : Time.Instant := .atSecond 0 (by decide)
  return (Time.Instant.ofParts? (nanos / 1000000000) (nanos % 1000000000).toNat).getD start

end ReportSql.Main

/-- Runs the program. -/
def main (args : List String) : IO UInt32 := do
  let now ← ReportSql.Main.now
  let outcome ← ReportSql.CommandLine.run
    ⟨ReportSql.Main.readFile, fun name => IO.getEnv name, now⟩ args
  IO.print outcome.stdout
  IO.eprint outcome.stderr
  return outcome.exit.toUInt32
