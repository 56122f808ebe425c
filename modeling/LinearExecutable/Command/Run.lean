import LinearExecutable.Command.Arguments
import LinearExecutable.Loader
import LinearExecutable.Report
import LinearExecutable.Schema.Standard
import LinearExecutable.Text.Utf8

/-!
# Running the command

The command decodes one file and reports on it. Everything it does follows from its arguments and
the files that they name, so it is a function of the two; what it writes is its result.
-/

namespace LinearExecutable.Command

/-- What stands behind the name of a file. -/
inductive FileState where
  | missing
  /-- Something that cannot be read as a file, and why. -/
  | unreadable (reason : String)
  | holding (bytes : ByteArray)

/-- The files as the command sees them, by their shown names. -/
abbrev Files := String → FileState

/-- What a run of the command comes to. -/
structure Outcome where
  exitCode : Nat
  /-- The text on standard output. -/
  output : String
  /-- The lines of the log that are written. -/
  log : List String
  /-- What is said about a wrong use of the command. -/
  complaint? : Option String
  deriving DecidableEq, Repr

/-- Why a run has no outcome. -/
inductive Failure where
  | unreadable (reason : String)
  /-- A name with a zero character, which no file has. -/
  | zeroInName
  /-- A configuration is no text. -/
  | notText (fault : Text.Utf8Fault)
  /-- A configuration is a document, but one of its parts cannot be read. -/
  | config (fault : Document.ReadFault)
  | error (e : Error)
  deriving DecidableEq, Repr

def Failure.message : Failure → String
  | unreadable reason => reason
  | zeroInName => "embedded null byte"
  | notText fault => fault.message
  | config fault => fault.message
  | error e => e.message

/-- What stands behind a name that the arguments give. -/
def lookUp (files : Files) (name : String) : Except Failure FileState :=
  if name.toList.contains '\x00' then .error .zeroInName else .ok (files name)

/-- The name of the command. -/
def commandName : String := "lxdump"

def commandVersion : String := "0.1.0"

/-- Lines as text. -/
def textOf (lines : List String) : String :=
  String.join (lines.map (· ++ "\n"))

/-! ## Runs that do not get to a file -/

/-- All options, one a line. -/
def helpLines : List String :=
  s!"usage: {commandName} [options] <file>" ::
    (Switch.all.map fun s => "  " ++ ", ".intercalate s.names) ++
    (Setting.all.map fun s => "  " ++ s.name ++ " <value>")

/-- The outcome when there are no arguments to act on. -/
def Stop.outcome : Stop → Outcome
  | .help => ⟨0, textOf helpLines, [], none⟩
  | .version => ⟨0, textOf [s!"{commandName} {commandVersion}"], [], none⟩
  | .fault cause => ⟨2, "", [], some s!"{commandName}: error: {cause.message}"⟩

/-! ## Configuration -/

/-- What is wrong with a part of a configuration, in words. -/
def issueText : IssueKind → String
  | .notAMapping => "not a mapping"
  | .notATruthValue | .unreadableTruthValue => "not a truth value"
  | .notACount | .unreadableCount => "not a count"
  | .fractionalCount => "not a whole number"
  | .infiniteCount => "not a finite number"
  | .oversizedCount => "too large"
  | .countBelowLeast => "too small"
  | .brokenText => "not a text"

/-- Parts of a configuration that cannot be used, in words. -/
def issuesText (issues : List Issue) : String :=
  "; ".intercalate (issues.map fun i => " ".intercalate (i.path ++ [issueText i.kind]))

/-- The options in a configuration file, or why it is refused. -/
def optionsOf (bytes : ByteArray) : Except Failure (Except String DecodeOptions) :=
  match Text.Utf8.fault? bytes.data.toList with
  | some fault => .error (.notText fault)
  | none =>
    match DecodeOptions.ofFileText .standard ((String.fromUTF8? bytes).getD "") with
    | .ok options => .ok (.ok options)
    | .error (.invalid issues) => .ok (.error (issuesText issues))
    | .error (.unreadable .malformed) => .ok (.error Document.ReadFault.malformed.message)
    | .error (.unreadable fault) => .error (.config fault)

/-- The options in the configuration file that the arguments name, or why there are none. -/
def configOptions (files : Files) (a : Arguments) :
    Except Failure (Except String DecodeOptions) :=
  match a.config? with
  | none => .ok (.ok .default)
  | some name => do
    match ← lookUp files name with
    | .missing => return .error "no such file"
    | .unreadable reason => return .error reason
    | .holding bytes => optionsOf bytes

/-! ## Reports -/

/-- Whether colours are used. -/
def palette (a : Arguments) : Palette :=
  if a.isPlain then .plain else .coloured

/-- The report that the arguments ask for. -/
def reportLines (a : Arguments) (options : DecodeOptions) (m : ModuleImage) :
    Except Error (List String) := do
  let colours := palette a
  let fixups ← if a.listFixups || options.resolveChains then
      Report.fixups m colours options.resolveChains
    else .ok []
  let imports ← if a.listImports then Report.imports m colours else .ok []
  return Report.summary m colours ++
    (if a.listObjects then Report.objects m colours else []) ++
    (if a.listPages then Report.pages m colours else []) ++
    fixups ++ imports

/-- The outcome of a run that ends with an error. -/
def failed (a : Arguments) (text : String) (log : List LogLine) : Outcome :=
  ⟨1, textOf [(palette a).errorLine text], LogLine.select a.log.level log, none⟩

/-- The line of the log for a module that cannot be decoded. -/
def failureLog (e : Error) : List LogLine :=
  if e.isDecodeError then [⟨.debug, "Decode failed"⟩] else []

/-- Whether an error is a result of the run, not a failure of the command. -/
def isReported : Error → Bool
  | .notImplemented _ => true
  | e => e.isDecodeError

/-- Decodes the bytes of a file and reports on them. -/
def dump (a : Arguments) (options : DecodeOptions) (file : String) (bytes : ByteArray) :
    Except Failure Outcome :=
  let source : Source := ⟨bytes, .little⟩
  let log := loadLog source options.effort file
  match loadFile source options.effort file with
  | .error e =>
    if isReported e then .ok (failed a s!"{file}: {e.message}" (log ++ failureLog e))
    else .error (.error e)
  | .ok m => Except.mapError .error do
    let lines ← reportLines a options m
    let chainLog ← if options.resolveChains then Report.chainLog m else .ok []
    return ⟨0, textOf lines, LogLine.select a.log.level (log ++ chainLog), none⟩

/-- Runs the command. -/
def run (files : Files) (texts : List String) : Except Failure Outcome :=
  match Arguments.read texts with
  | .error stop => .ok stop.outcome
  | .ok (file, a) => do
    match ← configOptions files a with
    | .error reason =>
      return failed a s!"Cannot load config file {a.config?.getD file}: {reason}" []
    | .ok config =>
      match ← lookUp files file with
      | .missing => return failed a s!"File not found: {file}" []
      | .unreadable reason => throw (.unreadable reason)
      | .holding bytes => dump a (a.decodeOptions config) file bytes

/-- The names of the files that a run with the given arguments reads. -/
def fileNames (texts : List String) : List String :=
  match Arguments.read texts with
  | .error _ => []
  | .ok (file, a) => a.config?.toList ++ [file]

end LinearExecutable.Command
