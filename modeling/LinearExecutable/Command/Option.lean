/-!
# The options of the command

A switch stands alone; a setting takes a value. An option may have several names, of which the
message about it shows all.
-/

namespace LinearExecutable.Command

/-- An option without a value. -/
inductive Switch where
  | help
  | version
  | objects
  | pages
  | fixups
  | chains
  | imports
  | bestEffort
  /-- No colours. -/
  | plain
  | debug
  deriving DecidableEq, Repr

/-- An option with a value. -/
inductive Setting where
  | workers
  | config
  | logLevel
  deriving DecidableEq, Repr

namespace Switch

def all : List Switch :=
  [help, version, objects, pages, fixups, chains, imports, bestEffort, plain, debug]

def names : Switch → List String
  | help => ["-h", "--help"]
  | version => ["--version"]
  | objects => ["--objects"]
  | pages => ["--pages"]
  | fixups => ["--fixups"]
  | chains => ["--chains"]
  | imports => ["--imports"]
  | bestEffort => ["--best-effort"]
  | plain => ["--no-color", "-n"]
  | debug => ["--debug"]

/-- The switch with a name, dashes included. -/
def ofName? (name : String) : Option Switch :=
  all.find? fun s => s.names.contains name

/-- The switch whose short name is a dash and a letter. -/
def ofLetter? (letter : Char) : Option Switch :=
  ofName? (String.ofList ['-', letter])

end Switch

namespace Setting

def all : List Setting := [workers, config, logLevel]

def name : Setting → String
  | workers => "--workers"
  | config => "--config"
  | logLevel => "--loglevel"

/-- The setting with a name, dashes included. -/
def ofName? (name : String) : Option Setting :=
  all.find? fun s => s.name = name

end Setting

/-- Any option. -/
inductive Opt where
  | switch (s : Switch)
  | setting (s : Setting)
  deriving DecidableEq, Repr

/-- The names of an option as messages show them. -/
def Opt.title : Opt → String
  | .switch s => "/".intercalate s.names
  | .setting s => s.name

end LinearExecutable.Command
