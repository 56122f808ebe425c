/-!
# Log lines

What decoding reports besides its result: lines with a level, in the order in which they arise.
-/

namespace LinearExecutable

/-- How grave a log line is. -/
inductive LogLevel where
  | debug
  | info
  | warning
  | error
  deriving DecidableEq, Repr

namespace LogLevel

def name : LogLevel → String
  | .debug => "DEBUG"
  | .info => "INFO"
  | .warning => "WARNING"
  | .error => "ERROR"

/-- The rank of a level: graver lines have a higher one. -/
def rank : LogLevel → Nat
  | .debug => 0
  | .info => 1
  | .warning => 2
  | .error => 3

/-- The upper case of a letter; the dotless i has the plain one. -/
def upper (c : Char) : Char := if c = '\u0131' then 'I' else c.toUpper

/-- The level with a name, in any case. -/
def ofName? (name : String) : Option LogLevel :=
  [debug, info, warning, error].find? fun level => level.name = name.map upper

end LogLevel

/-- A line of the log. -/
structure LogLine where
  level : LogLevel
  text : String
  deriving DecidableEq, Repr

/-- A line as it is written. -/
def LogLine.render (line : LogLine) : String :=
  s!"[{line.level.name}] {line.text}"

/-- The lines that are written when only lines from a level on are wanted. -/
def LogLine.select (from? : LogLevel) (lines : List LogLine) : List String :=
  (lines.filter fun line => from?.rank ≤ line.level.rank).map LogLine.render

end LinearExecutable
