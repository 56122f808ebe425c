import LinearExecutable.Fixup.Page
import LinearExecutable.Schema

/-!
# Options for decoding

Options come from a configuration and are written back as one. Two of them have an old name with an
underscore besides the one with a dash, which comes first; they are written under the old one.
-/

namespace LinearExecutable

/-- A number of workers: at least one. -/
abbrev WorkerCount := Schema.AtLeast 1

/-- The options for decoding a module. -/
structure DecodeOptions where
  /-- Keep going when the fixups of a page cannot be decoded. -/
  bestEffort : Bool
  /-- The size of the pool that decodes fixups, if there is one. -/
  workers? : Option WorkerCount
  /-- Follow chained fixups. -/
  resolveChains : Bool
  deriving DecidableEq, Repr

namespace DecodeOptions

/-- Strict, without a pool, chains left alone. -/
def default : DecodeOptions := ⟨false, none, false⟩

/-- The options that the fixup decoder takes. -/
def effort (o : DecodeOptions) : Fixup.Effort :=
  ⟨o.bestEffort, o.workers?.map fun n => (n.val : Int)⟩

/-! ## The schema of a configuration -/

/-- The options as items of a configuration. -/
def items : List Schema.Item :=
  [⟨"best_effort", ["best-effort", "best_effort"], .truth, false⟩,
    ⟨"workers", ["workers"], .count 1, none⟩,
    ⟨"resolve_chains", ["resolve-chains", "resolve_chains"], .truth, false⟩]

def values (o : DecodeOptions) : Schema.Values items :=
  (o.bestEffort, o.workers?, o.resolveChains, ())

def ofValues : Schema.Values items → DecodeOptions
  | (bestEffort, workers?, resolveChains, ()) => ⟨bestEffort, workers?, resolveChains⟩

def schema : Schema where
  key := "decode"
  items := items
  unset := default.values

/-! ## Reading and writing -/

variable (lib : Library)

/-- The options in a configuration document. -/
def ofDocument (doc : Document) : Except (List Issue) DecodeOptions :=
  (lib.validate schema doc).map ofValues

/-- The options in a configuration text. -/
def ofText (text : String) : Except ConfigFault DecodeOptions :=
  (lib.read schema text).map ofValues

/-- The options in the text of a configuration file. -/
def ofFileText (text : String) : Except ConfigFault DecodeOptions :=
  (lib.readFile schema text).map ofValues

/-- The configuration text of options. -/
def written (o : DecodeOptions) : Except Document.WriteFault String := lib.write schema o.values

end DecodeOptions

end LinearExecutable
