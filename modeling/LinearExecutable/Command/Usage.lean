import LinearExecutable.Command.Option
import LinearExecutable.Text.Quoted

/-!
# Wrong use of the command

What can be wrong with the arguments of the command, by cause, and the line that says so.
-/

namespace LinearExecutable.Command

open Text (quoted)

/-- What is wrong with the arguments. -/
inductive UsageFault where
  /-- A setting that no value follows. -/
  | noValue (setting : Setting)
  /-- A value that is attached to a switch. -/
  | ignoredValue (switch : Switch) (value : String)
  /-- The number of workers is no number. -/
  | unreadableWorkers (value : String)
  | workersBelowOne
  | unknownLevel (name : String)
  /-- An option that may not stand beside an earlier one. -/
  | excluded (option earlier : Opt)
  | noFile
  /-- Arguments that are neither options nor the name of the file. -/
  | unrecognized (arguments : List String)
  deriving DecidableEq, Repr

namespace UsageFault

/-- A complaint about one option. -/
def about (option : Opt) (text : String) : String :=
  s!"argument {option.title}: {text}"

def message : UsageFault → String
  | noValue setting => about (.setting setting) "expected one argument"
  | ignoredValue switch value =>
    about (.switch switch) s!"ignored explicit argument {quoted value}"
  | unreadableWorkers value =>
    about (.setting .workers) s!"invalid worker_count value: {quoted value}"
  | workersBelowOne => about (.setting .workers) "must be at least 1"
  | unknownLevel name => about (.setting .logLevel) ("unknown log level '" ++ name ++ "'")
  | excluded option earlier => about option s!"not allowed with argument {earlier.title}"
  | noFile => "the following arguments are required: <file>"
  | unrecognized arguments => "unrecognized arguments: " ++ " ".intercalate arguments

end UsageFault

end LinearExecutable.Command
