import LinearExecutable.Command.Token
import LinearExecutable.DecodeOptions
import LinearExecutable.Text.Path

/-!
# The arguments of the command

Arguments are read from left to right. The first fault ends reading; what is only known at the end,
that the file is missing or that arguments are left, is reported after it, in this order.
-/

namespace LinearExecutable.Command

/-- Which log lines are asked for. The switch and the setting exclude each other, but a setting that
asks for what is written anyway does not count. -/
structure LogChoice where
  /-- The level of the lines that are written. -/
  level : LogLevel
  /-- The switch was used. -/
  bySwitch : Bool
  /-- The setting was used. -/
  bySetting : Bool
  deriving DecidableEq, Repr

namespace LogChoice

/-- Warnings and errors, as long as nothing is asked for. -/
def unset : LogChoice := ⟨.warning, false, false⟩

/-- Asks for all lines by the switch. -/
def withSwitch (c : LogChoice) : Except UsageFault LogChoice :=
  if c.bySetting then .error (.excluded (.switch .debug) (.setting .logLevel))
  else .ok { c with level := .debug, bySwitch := true }

/-- Asks for the lines of a level by the setting. -/
def withSetting (c : LogChoice) (level : LogLevel) : Except UsageFault LogChoice :=
  if level = unset.level then .ok { c with level := level }
  else if c.bySwitch then .error (.excluded (.setting .logLevel) (.switch .debug))
  else .ok { c with level := level, bySetting := true }

end LogChoice

/-- The arguments of the command. -/
structure Arguments where
  file? : Option String
  listObjects : Bool
  listPages : Bool
  listFixups : Bool
  resolveChains : Bool
  listImports : Bool
  bestEffort : Bool
  isPlain : Bool
  workers? : Option WorkerCount
  config? : Option String
  log : LogChoice
  /-- The arguments that are left, in their order. -/
  left : List String
  deriving DecidableEq, Repr

/-- Why no arguments come out of reading: a switch that asks for something else, or a fault. -/
inductive Stop where
  | help
  | version
  | fault (cause : UsageFault)
  deriving DecidableEq, Repr

namespace Arguments

/-- No argument at all. -/
def empty : Arguments where
  file? := none
  listObjects := false
  listPages := false
  listFixups := false
  resolveChains := false
  listImports := false
  bestEffort := false
  isPlain := false
  workers? := none
  config? := none
  log := .unset
  left := []

/-- Takes a switch into account. -/
def withSwitch (a : Arguments) : Switch → Except Stop Arguments
  | .help => .error .help
  | .version => .error .version
  | .objects => .ok { a with listObjects := true }
  | .pages => .ok { a with listPages := true }
  | .fixups => .ok { a with listFixups := true }
  | .chains => .ok { a with resolveChains := true }
  | .imports => .ok { a with listImports := true }
  | .bestEffort => .ok { a with bestEffort := true }
  | .plain => .ok { a with isPlain := true }
  | .debug =>
    match a.log.withSwitch with
    | .ok log => .ok { a with log := log }
    | .error fault => .error (.fault fault)

/-- The number of workers in a value. -/
def workersOf (value : String) : Except UsageFault WorkerCount :=
  match Text.anyInteger? value with
  | none => .error (.unreadableWorkers value)
  | some i => if h : 1 ≤ i.toNat then .ok ⟨i.toNat, h⟩ else .error .workersBelowOne

/-- Takes a setting with its value into account. -/
def withSetting (a : Arguments) (setting : Setting) (value : String) : Except Stop Arguments :=
  match setting with
  | .workers =>
    match workersOf value with
    | .ok n => .ok { a with workers? := some n }
    | .error fault => .error (.fault fault)
  | .config => .ok { a with config? := some (Text.normalPath value) }
  | .logLevel =>
    match LogLevel.ofName? value with
    | none => .error (.fault (.unknownLevel value))
    | some level =>
      match a.log.withSetting level with
      | .ok log => .ok { a with log := log }
      | .error fault => .error (.fault fault)

/-- Takes a positional argument into account: the first one is the name of the file. -/
def withPositional (a : Arguments) (text : String) : Arguments :=
  match a.file? with
  | none => { a with file? := some (Text.normalPath text) }
  | some _ => { a with left := a.left ++ [text] }

/-- Takes the arguments behind two dashes into account: none of them is an option. The dashes
themselves count only if the name of the file is known and does not stand in front of them. -/
def withRest (a : Arguments) (isBehindFile : Bool) (rest : List String) : Arguments :=
  if a.file?.isSome && !isBehindFile then { a with left := a.left ++ "--" :: rest }
  else rest.foldl withPositional a

/-- Reads arguments from left to right; `isBehindFile` says that the last one was the file. -/
def readFrom (a : Arguments) (isBehindFile : Bool) : List String → Except Stop Arguments
  | [] => .ok a
  | "--" :: rest => .ok (a.withRest isBehindFile rest)
  | text :: rest =>
    match Token.ofText text with
    | .positional => readFrom (a.withPositional text) a.file?.isNone rest
    | .unknown => readFrom { a with left := a.left ++ [text] } false rest
    | .switchValue s value => .error (.fault (.ignoredValue s value))
    | .switch s => do readFrom (← a.withSwitch s) false rest
    | .cluster first letters =>
      match clusterSwitches first letters with
      | .error fault => .error (.fault fault)
      | .ok switches => do readFrom (← switches.foldlM withSwitch a) false rest
    | .settingValue s value => do readFrom (← a.withSetting s value) false rest
    | .setting s =>
      match rest with
      | [] => .error (.fault (.noValue s))
      | value :: rest =>
        if Token.isValue value then do readFrom (← a.withSetting s value) false rest
        else .error (.fault (.noValue s))

/-- The name of the file and the arguments of the command. -/
def read (texts : List String) : Except Stop (String × Arguments) := do
  let a ← readFrom empty false texts
  match a.file?, a.left with
  | none, _ => throw (.fault .noFile)
  | some _, _ :: _ => throw (.fault (.unrecognized a.left))
  | some file, [] => return (file, a)

/-- The options for decoding: those of the configuration unless an argument says otherwise. -/
def decodeOptions (a : Arguments) (config : DecodeOptions) : DecodeOptions where
  bestEffort := a.bestEffort || config.bestEffort
  workers? := a.workers? <|> config.workers?
  resolveChains := a.resolveChains || config.resolveChains

end Arguments

end LinearExecutable.Command
