import LinearExecutable.Command.Run

/-!
# The command

Reads the files that the arguments name, runs the command on them and writes its outcome: the report
to standard output, the log and complaints to standard error.
-/

namespace LinearExecutable.Command

/-- What stands behind the name of a file. -/
def readState (name : String) : IO FileState := do
  try
    return .holding (← IO.FS.readBinFile name)
  catch
    | .noFileOrDirectory .. => return .missing
    | e => return .unreadable (toString e)

end LinearExecutable.Command

open LinearExecutable.Command

def main (texts : List String) : IO UInt32 := do
  let states ← (fileNames texts).mapM fun name => return (name, ← readState name)
  match run (fun name => (states.lookup name).getD .missing) texts with
  | .ok outcome =>
    IO.print outcome.output
    outcome.log.forM IO.eprintln
    outcome.complaint?.forM IO.eprintln
    return UInt32.ofNat outcome.exitCode
  | .error failure =>
    IO.eprintln failure.message
    return 1
