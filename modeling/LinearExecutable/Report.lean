import LinearExecutable.Image.Chains
import LinearExecutable.Image.Imports

/-!
# Reports on a module

What a decoded module looks like in words: a summary, its objects, its pages, the fixups of every
page and the imports. A report is a list of lines; colours, if wanted, mark titles, warnings and
errors.
-/

namespace LinearExecutable

open Fixup (ChainLink Record Target)
open Text (hex hexPadded padLeft padRight)

/-- What a stretch of a report is. -/
inductive Emphasis where
  | title
  | warning
  | error
  deriving DecidableEq, Repr

/-- Whether a report has colours. -/
inductive Palette where
  | plain
  | coloured
  deriving DecidableEq, Repr

namespace Palette

/-- The control sequence that switches to the colour of an emphasis: white, yellow or red. -/
def start : Emphasis → String
  | .title => "\x1b[97m"
  | .warning => "\x1b[33m"
  | .error => "\x1b[31m"

/-- The control sequence that switches back. -/
def stop : String := "\x1b[0m"

/-- A stretch of text in the colour of an emphasis. -/
def paint (palette : Palette) (emphasis : Emphasis) (text : String) : String :=
  match palette with
  | plain => text
  | coloured => start emphasis ++ text ++ stop

/-- A title behind an empty line. -/
def titleLines (palette : Palette) (text : String) : List String :=
  ["", palette.paint .title text]

def warningLine (palette : Palette) (text : String) : String :=
  palette.paint .warning "warning: " ++ text

def errorLine (palette : Palette) (text : String) : String :=
  palette.paint .error "error: " ++ text

end Palette

namespace Report

/-- A labelled line of the summary. -/
def labelled (label value : String) : String :=
  "  " ++ padRight 14 (label ++ ":") ++ value

def orderName : ByteOrder → String
  | .little => "little"
  | .big => "big"

/-- Where the module starts to run; a warning if that is in no object. -/
def entryLines (m : ModuleImage) (palette : Palette) : List String :=
  match m.entry with
  | .ok none => []
  | .ok (some address) => [labelled "entry" ("0x" ++ hex address)]
  | .error _ => [palette.warningLine s!"entry point is in missing object {m.header.entryObject}"]

/-- The place of the module header behind a DOS program. -/
def placeLines (m : ModuleImage) : List String :=
  match m.dosHeader? with
  | none => []
  | some dosHeader =>
    [labelled "header at" s!"0x{hex m.headerOffset} (DOS stub {dosHeader.stubSize} bytes)"]

def nameLines (m : ModuleImage) : List String :=
  if m.moduleName = "" then [] else [labelled "module name" m.moduleName]

/-- The summary of a module, with a warning for each page whose fixups are incomplete. -/
def summary (m : ModuleImage) (palette : Palette) : List String :=
  palette.titleLines m.path ++
    [labelled "format" s!"{m.header.signature.name} ({orderName m.order} endian)"] ++
    placeLines m ++
    nameLines m ++
    [labelled "flags" ("0x" ++ hexPadded 8 m.header.moduleFlags),
      labelled "page size" ("0x" ++ hex m.header.pageSize),
      labelled "objects" (toString m.objects.length),
      labelled "pages" (toString m.pageTable.length),
      labelled "fixups" (toString m.fixupCount)] ++
    entryLines m palette ++
    m.diagnostics.map fun d => palette.warningLine d.error.message

def objectLine (o : ObjectEntry) : String :=
  let number := padRight 3 (toString o.number)
  let base := hexPadded 8 o.base
  let size := hexPadded 8 o.virtualSize
  let flags := hexPadded 4 o.flags
  s!"  #{number} base 0x{base} size 0x{size} flags 0x{flags} pages {o.firstPage}+{o.pageCount}"

/-- The object table. -/
def objects (m : ModuleImage) (palette : Palette) : List String :=
  palette.titleLines "Objects" ++ m.objects.map objectLine

def pageLine (page : PageEntry) : String :=
  let number := padLeft 5 (toString page.number)
  let offset := hexPadded 8 page.offset
  let size := hexPadded 4 page.size
  s!"  {number} offset 0x{offset} size 0x{size} {page.kind.name}"

/-- The page table. -/
def pages (m : ModuleImage) (palette : Palette) : List String :=
  palette.titleLines "Pages" ++ m.pageTable.map pageLine

/-! ## Fixups -/

def offsetText : Option Int → String
  | none => "None"
  | some offset => toString offset

/-- The target of a fixup with the names of its parts. -/
def targetText : Target → String
  | .internal object offset? =>
    s!"InternalTarget(object_number={object}, offset={offsetText offset?})"
  | .entry ordinal offset? => s!"EntryTableTarget(ordinal={ordinal}, offset={offsetText offset?})"
  | .byOrdinal library ordinal =>
    s!"ImportOrdinalTarget(module_ordinal={library}, ordinal={ordinal})"
  | .byName library nameOffset =>
    s!"ImportNameTarget(module_ordinal={library}, name_offset={nameOffset})"

/-- A source offset: its low 16 bits. -/
def sourceText (offset : Int) : String :=
  "0x" ++ hexPadded 3 (offset % 0x10000)

def recordLine (r : Record) : Except Error String := do
  let kind := padRight 16 (← r.kind).name
  let type := padRight 14 r.form.targetType.name
  let offsets := ", ".intercalate (r.offsets.map sourceText)
  return s!"    {kind} {type} [{offsets}] -> {targetText r.target}"

def linkText (link : ChainLink) : String :=
  s!"0x{hexPadded 3 link.source}->0x{hex link.target}"

/-- The links of a chain, or a warning if the chain does not end. -/
def chainLine (page : Nat) (palette : Palette) (outcome : ChainOutcome) : Except Error String :=
  match outcome.overflow?, outcome.head.offsets with
  | some overflow, _ => .ok (palette.warningLine s!"page {page}: {overflow.message}")
  | none, [] => .error .noSourceOffset
  | none, first :: _ =>
    let links := " ".intercalate (outcome.links.map linkText)
    .ok s!"    chain at 0x{hexPadded 3 first}: {links}"

/-- The fixups of a page, and its chains if they are followed. Pages without fixups are left out. -/
def pageFixups (m : ModuleImage) (palette : Palette) (resolveChains : Bool) (page : Nat) :
    Except Error (List String) := do
  let records ← m.pageRecords page
  if records.isEmpty then return []
  let lines ← records.mapM recordLine
  let chains ← if resolveChains then m.chains page else .ok []
  let chainLines ← chains.mapM (chainLine page palette)
  return s!"  page {page}: {records.length} records" :: lines ++ chainLines

/-- The numbers of the pages of a module. -/
def pageNumbers (m : ModuleImage) : List Nat := List.range' 1 m.pageTable.length

/-- The fixups of all pages. -/
def fixups (m : ModuleImage) (palette : Palette) (resolveChains : Bool) :
    Except Error (List String) := do
  let lines ← (pageNumbers m).mapM (pageFixups m palette resolveChains)
  return palette.titleLines "Fixups" ++ lines.flatten

/-- What following the chains of a module reports: a line for each that does not end. -/
def chainLog (m : ModuleImage) : Except Error (List LogLine) := do
  let lines ← (pageNumbers m).mapM fun (page : Nat) => do
    return (← m.chains page).filterMap (ChainOutcome.log? page)
  return lines.flatten

/-! ## Imports -/

def importLine (i : Import) : String :=
  let symbol := if i.name = "" then s!"#{i.ordinal}" else i.name
  s!"  0x{hexPadded 8 i.address} {i.library}.{symbol}"

/-- The places that the loader patches with symbols of other modules. -/
def imports (m : ModuleImage) (palette : Palette) : Except Error (List String) := do
  return palette.titleLines "Imports" ++ (← m.imports).map importLine

end Report

end LinearExecutable
