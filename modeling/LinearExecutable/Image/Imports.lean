import LinearExecutable.Image.Module

/-!
# Imports

Every place that a fixup with a target in another module patches is an import: of a symbol by number
or by name.
-/

namespace LinearExecutable

open Fixup (Record)

/-- A place that the loader patches with a symbol of another module. Imports by name have the
ordinal zero. -/
structure Import where
  address : Int
  library : String
  ordinal : Int
  name : String
  deriving DecidableEq, Repr

namespace ModuleImage

/-- The name of a module that is imported from; an ordinal without a name is shown as it is. -/
def importModule (m : ModuleImage) (ordinal : Int) : String :=
  let unnamed := s!"#{ordinal}"
  if 1 ≤ ordinal ∧ ordinal ≤ m.importModules.length then
    m.importModules[(ordinal - 1).toNat]?.getD unnamed
  else unnamed

/-- The name at a place of the import procedure table. -/
def procedureName (m : ModuleImage) (nameOffset : Int) : String :=
  (m.importProcedures.lookup nameOffset).getD ""

/-- The symbol that a record imports: the module, the ordinal and the name. -/
def importedSymbol? (m : ModuleImage) (r : Record) : Option (Int × Int × String) :=
  match r.target with
  | .byOrdinal library ordinal => some (library, ordinal, "")
  | .byName library nameOffset => some (library, 0, m.procedureName nameOffset)
  | .internal _ _ | .entry _ _ => none

/-- The imports of a record on a page that is loaded at an address. -/
def recordImports (m : ModuleImage) (address : Int) (r : Record) : List Import :=
  match m.importedSymbol? r with
  | none => []
  | some (library, ordinal, name) =>
    r.offsets.map fun offset => ⟨address + offset, m.importModule library, ordinal, name⟩

/-- All imports, in the order of pages, records and source offsets. -/
def imports (m : ModuleImage) : Except Error (List Import) := do
  let perPage ← (m.fixups.zipIdx 1).mapM fun (records, page) => do
    let address ← m.pageAddress page
    return records.flatMap (m.recordImports address)
  return perPage.flatten

end ModuleImage

end LinearExecutable
