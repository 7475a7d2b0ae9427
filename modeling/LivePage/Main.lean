import LivePage.Command.Run
import Std.Time.DateTime.Timestamp

/-!
# The program
-/

open LivePage

namespace LivePage.Program

/-- Why there is no text of a file, as messages say it. -/
def fileError : IO.Error → FileError
  | .noFileOrDirectory _ code _ => .unopened s!"No such file or directory (os error {code})"
  | .permissionDenied _ code _ => .unopened s!"Permission denied (os error {code})"
  | .inappropriateType _ code _ => .unreadable s!"Is a directory (os error {code})"
  | .userError _ => .unreadable "stream did not contain valid UTF-8"
  | e => .unreadable (toString e)

def readFile (path : String) : IO (String × Except FileError String) := do
  try return (path, .ok (← IO.FS.readFile path))
  catch e => return (path, .error (fileError e))

def readFiles : Invocation → IO (List (String × Except FileError String))
  | .command c => c.paths.mapM readFile
  | _ => return []

end LivePage.Program

def main (args : List String) : IO UInt32 := do
  let invocation := Command.read args
  let files ← Program.readFiles invocation
  let now ← Std.Time.Timestamp.now
  let outcome := invocation.run now.toMillisecondsSinceUnixEpoch.val fun path =>
    (files.lookup path).getD (.error (.unopened "No such file or directory (os error 2)"))
  for line in outcome.output do IO.println line
  for line in outcome.errors do IO.eprintln line
  return UInt32.ofNat outcome.exit
