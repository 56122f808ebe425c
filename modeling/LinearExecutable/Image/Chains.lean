import LinearExecutable.Fixup.Chain
import LinearExecutable.Image.Module

/-!
# The chains of a page

Every chain head of a page is followed through the stored bytes of the page, independently of the
other chains: one that does not end is reported with its failure and without links.
-/

namespace LinearExecutable

open Fixup (ChainLink Record)

/-- What following a chain leads to. -/
structure ChainOutcome where
  head : Record
  links : List ChainLink
  overflow? : Option ChainOverflow
  deriving DecidableEq, Repr

namespace ModuleImage

/-- Follows the chain of a record through the bytes of its page. -/
def followChain (m : ModuleImage) (page : Int) (data : List UInt8) (head : Record) :
    Except Error ChainOutcome :=
  match Fixup.resolveChain m.order head data m.header.pageSize page with
  | .ok links => .ok ⟨head, links, none⟩
  | .error (.chainOverflow overflow) => .ok ⟨head, [], some overflow⟩
  | .error e => .error e

/-- Follows every chain of a page. -/
def chains (m : ModuleImage) (page : Int) : Except Error (List ChainOutcome) := do
  let data ← m.pageData page
  let records ← m.pageRecords page
  (records.filter fun r => r.form.isChained).mapM (m.followChain page data)

end ModuleImage

/-- A line for a chain that does not end. -/
def ChainOutcome.log? (page : Int) (outcome : ChainOutcome) : Option LogLine :=
  outcome.overflow?.map fun overflow => ⟨.debug, s!"Page {page}: {overflow.message}"⟩

end LinearExecutable
