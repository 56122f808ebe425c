import LinearExecutable.Bytes.LayoutText
import LinearExecutable.Image.Basic
import LinearExecutable.Main
import LinearExecutable.Proofs.Bytes.Behind
import LinearExecutable.Proofs.Bytes.Cut
import LinearExecutable.Proofs.Bytes.LayoutText
import LinearExecutable.Proofs.Bytes.Packing
import LinearExecutable.Proofs.Bytes.Window
import LinearExecutable.Proofs.Command.Exit
import LinearExecutable.Proofs.DecodeOptions
import LinearExecutable.Proofs.Fixup.Chain
import LinearExecutable.Proofs.Fixup.Codec
import LinearExecutable.Proofs.Fixup.Fields
import LinearExecutable.Proofs.Fixup.Locality
import LinearExecutable.Proofs.Fixup.Pages
import LinearExecutable.Proofs.Fixup.Schedule
import LinearExecutable.Proofs.Header
import LinearExecutable.Proofs.Header.Acceptance
import LinearExecutable.Proofs.Image.Answers
import LinearExecutable.Proofs.Image.BestEffort
import LinearExecutable.Proofs.Image.Blueprint
import LinearExecutable.Proofs.Image.Chains
import LinearExecutable.Proofs.Image.Cut
import LinearExecutable.Proofs.Image.Decoded
import LinearExecutable.Proofs.Image.Fixups
import LinearExecutable.Proofs.Image.Imports
import LinearExecutable.Proofs.Image.MemoryMap
import LinearExecutable.Proofs.Image.Pages
import LinearExecutable.Proofs.Image.PhysicalPages
import LinearExecutable.Proofs.Image.Presence
import LinearExecutable.Proofs.Image.Refusal
import LinearExecutable.Proofs.Image.Regions
import LinearExecutable.Proofs.Image.Strings
import LinearExecutable.Proofs.Image.Stub
import LinearExecutable.Proofs.IteratedPage
import LinearExecutable.Proofs.Loader
import LinearExecutable.Proofs.NameTable
import LinearExecutable.Proofs.PageTable
