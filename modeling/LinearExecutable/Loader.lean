import LinearExecutable.Image.Assembly

/-!
# Loading a file

What a file holds shows in its first bytes: a DOS program whose header leads to another header, or a
module without a DOS program in front of it.
-/

namespace LinearExecutable

open Fixup (Effort)

/-- Which header the bytes at an offset announce. -/
inductive HeaderKind where
  | linear
  /-- A format that is known but not decoded. -/
  | foreign (name : String)
  | unknown
  deriving DecidableEq, Repr

/-- The header that a signature announces. -/
def HeaderKind.ofSignature (bytes : List UInt8) : HeaderKind :=
  if (Signature.ofBytes? bytes).isSome then .linear
  else if bytes = [0x50, 0x45] then .foreign "PE"
  else if bytes = [0x4e, 0x45] then .foreign "NE"
  else .unknown

/-- Where the module of a file starts, and the DOS header that says so. -/
structure Entrance where
  offset : Int
  dosHeader? : Option DosHeader
  deriving DecidableEq, Repr

/-- Finds the module of a file. -/
def findModule (file : Source) (path : String) : Except Error Entrance := do
  if DosHeader.isAt file 0 then
    let (dosHeader, _) ← DosHeader.read file 0
    let offset : Int := dosHeader.moduleHeader
    match HeaderKind.ofSignature (file.signatureAt offset) with
    | .linear => return ⟨offset, some dosHeader⟩
    | .foreign name => throw (.notImplemented s!"{name} file format not implemented")
    | .unknown => throw (.noHeader (.plainProgram path))
  else if Header.isAt file 0 then return ⟨0, none⟩
  else throw (.noHeader (.unknownFile path))

/-- Decodes the module of a file, wherever it starts. -/
def loadFile (file : Source) (effort : Effort) (path : String) : Except Error ModuleImage := do
  let entrance ← findModule file path
  ModuleImage.decode file entrance.offset effort path entrance.dosHeader?

/-- What loading a file reports. -/
def loadLog (file : Source) (effort : Effort) (path : String) : List LogLine :=
  match findModule file path with
  | .ok entrance => ModuleImage.decodeLog file entrance.offset effort
  | .error _ => []

/-- Decodes a module whose DOS header is known, strictly. -/
def loadBehind (file : Source) (dosHeader : DosHeader) (path : String) :
    Except Error ModuleImage :=
  ModuleImage.decode file dosHeader.moduleHeader ⟨false, none⟩ path (some dosHeader)

end LinearExecutable
