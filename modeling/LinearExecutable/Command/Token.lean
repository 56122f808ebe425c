import LinearExecutable.Command.Usage
import LinearExecutable.Text.Decimal

/-!
# Reading one argument

An argument is an option, possibly with a value behind an equals sign, or a group of switches behind
one dash, or positional. What starts with a dash and is neither a number nor holds a blank is taken
for an option even if there is none of that name.
-/

namespace LinearExecutable.Command

/-- What a single argument is. -/
inductive Token where
  | positional
  | switch (s : Switch)
  | setting (s : Setting)
  /-- A switch with a value behind an equals sign. -/
  | switchValue (s : Switch) (value : String)
  /-- A setting with a value behind an equals sign. -/
  | settingValue (s : Setting) (value : String)
  /-- A switch and the letters behind it. -/
  | cluster (first : Switch) (letters : List Char)
  /-- An option that does not exist. -/
  | unknown
  deriving DecidableEq, Repr

namespace Token

/-- Characters without the newline that may end them. -/
def dropNewline (cs : List Char) : List Char :=
  if cs.getLast? = some '\n' then cs.dropLast else cs

/-- Whether characters spell a number of decimal digits, possibly with a point in front of the last
of them; a newline may end them. -/
def isNumeral (cs : List Char) : Bool :=
  let isDigit (c : Char) := (Text.digit? c).isSome
  let cs := dropNewline cs
  match cs.dropWhile isDigit with
  | [] => !cs.isEmpty
  | '.' :: fraction => !fraction.isEmpty && fraction.all isDigit
  | _ => false

/-- The option with a name. -/
def named? (name : String) : Option Token :=
  match Switch.ofName? name, Setting.ofName? name with
  | some s, _ => some (.switch s)
  | none, some s => some (.setting s)
  | none, none => none

/-- An option with a value. Behind a short name a value that is not empty is read as letters. -/
def valued? (name value : List Char) : Option Token :=
  match named? (String.ofList name) with
  | some (.switch s) =>
    if name.length = 2 && !value.isEmpty then some (.cluster s value)
    else some (.switchValue s (String.ofList value))
  | some (.setting s) => some (.settingValue s (String.ofList value))
  | _ => none

/-- The option in front of the first equals sign, with what is behind the sign as its value. -/
def assigned? (cs : List Char) : Option Token :=
  match cs.dropWhile (· ≠ '=') with
  | '=' :: value => valued? (cs.takeWhile (· ≠ '=')) value
  | _ => none

/-- A switch with a short name, and the letters behind it. -/
def cluster? : List Char → Option Token
  | '-' :: letter :: letters =>
    if letter = '-' then none else (Switch.ofLetter? letter).map (.cluster · letters)
  | _ => none

/-- What an argument with a dash in front is if there is no option of its name. -/
def ofOther (cs : List Char) : Token :=
  if isNumeral cs.tail || cs.contains ' ' then .positional else .unknown

/-- What an argument is. -/
def ofText (text : String) : Token :=
  let cs := text.toList
  if cs.head? ≠ some '-' || cs.length = 1 then .positional
  else (named? text <|> assigned? cs <|> cluster? cs).getD (ofOther cs)

/-- Whether an argument can be the value of the setting in front of it. -/
def isValue (text : String) : Bool :=
  ofText text = .positional && text ≠ "--"

end Token

/-- The switches of a group. A letter that is no switch makes it and all behind it a value of the
switch in front of it, which takes none. -/
def clusterSwitches (current : Switch) : List Char → Except UsageFault (List Switch)
  | [] => .ok [current]
  | letter :: rest =>
    match Switch.ofLetter? letter with
    | none => .error (.ignoredValue current (String.ofList (letter :: rest)))
    | some next => (clusterSwitches next rest).map (current :: ·)

end LinearExecutable.Command
