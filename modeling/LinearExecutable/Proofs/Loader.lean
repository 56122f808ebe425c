import LinearExecutable.Loader
import LinearExecutable.Proofs.DosHeader
import LinearExecutable.Proofs.Image.Blueprint
import LinearExecutable.Proofs.Image.Decoded

/-!
# Ways to load a file

A file is loaded by what its first bytes announce: behind a DOS program from the place that its
header gives, or from the start of the file. Whoever has the DOS header already decodes the module
from that place without a look at what stands there. Both ways come to the same module, since a
header is read only where its signature stands.
-/

namespace LinearExecutable

open Fixup (Effort)
open ModuleImage (decode)

/-! ## 1. Signatures -/

-- The signatures of modules are announced, and nothing else is taken for one.
theorem Signature.ofBytes?_eq_none_iff {bytes : List UInt8} :
    ofBytes? bytes = none ↔ ∀ signature : Signature, bytes ≠ signature.toBytes := by
  rw [Option.eq_none_iff_forall_ne_some]
  exact forall_congr' fun signature => not_congr ofBytes?_eq_some_iff

namespace HeaderKind

theorem ofSignature_linear (signature : Signature) : ofSignature signature.toBytes = .linear := by
  cases signature <;> rfl

theorem ofSignature_unknown {bytes : List UInt8}
    (h : ∀ signature : Signature, bytes ≠ signature.toBytes) (hpe : bytes ≠ [0x50, 0x45])
    (hne : bytes ≠ [0x4e, 0x45]) : ofSignature bytes = .unknown := by
  rw [ofSignature, Signature.ofBytes?_eq_none_iff.mpr h, if_neg (by decide), if_neg hpe, if_neg hne]

end HeaderKind

-- A module is decoded only where its signature stands.
theorem exists_signature_of_decode {file : Source} {start : Nat} {effort : Effort} {path : String}
    {dosHeader? : Option DosHeader} {m : ModuleImage}
    (h : decode file start effort path dosHeader? = .ok m) :
    ∃ signature : Signature, file.pairAt start = signature.toBytes := by
  obtain ⟨t, htables, -⟩ := ModuleImage.decode_eq_ok_iff.mp h
  obtain ⟨-, -, hheader, -⟩ := Tables.read_eq_ok_iff.mp htables
  obtain ⟨-, hheld, -⟩ := Header.read_eq_ok_iff.mp hheader
  refine ⟨t.header.signature, ?_⟩
  rw [← Source.signatureAt_natCast]
  exact Source.signatureAt_eq (Header.holds_encode_iff.mp hheld).1 (Signature.length_toBytes _)

/-! ## 2. Files -/

section Files

variable {file : Source}

/-- Behind a DOS program, what stands where its header points decides. -/
theorem loadFile_behind {dosHeader : DosHeader} {next : Int} (hdos : DosHeader.isAt file 0 = true)
    (hread : DosHeader.read file 0 = .ok (dosHeader, next)) (effort : Effort) (path : String) :
    loadFile file effort path =
      match HeaderKind.ofSignature (file.pairAt dosHeader.moduleHeader) with
      | .linear => decode file dosHeader.moduleHeader effort path (some dosHeader)
      | .foreign name => .error (.notImplemented s!"{name} file format not implemented")
      | .unknown => .error (.noHeader (.plainProgram path)) := by
  rw [loadFile, findModule, if_pos hdos, hread, Except.bind_ok]
  dsimp only
  rw [Source.signatureAt_natCast]
  cases HeaderKind.ofSignature (file.pairAt dosHeader.moduleHeader) with
  | linear => exact Except.bind_ok _ _
  | foreign name => rfl
  | unknown => rfl

theorem loadFile_bare (hdos : DosHeader.isAt file 0 = false) (effort : Effort) (path : String) :
    loadFile file effort path =
      if (Signature.ofBytes? (file.pairAt 0)).isSome then decode file 0 effort path none
      else .error (.noHeader (.unknownFile path)) := by
  have hannounced : Header.isAt file 0 = (Signature.ofBytes? (file.pairAt 0)).isSome :=
    congrArg (fun bytes => (Signature.ofBytes? bytes).isSome) (file.signatureAt_natCast 0)
  rw [loadFile, findModule, hdos, if_neg Bool.false_ne_true, hannounced]
  split
  · exact Except.bind_ok _ _
  · rfl

/-- Decoding from the place that a DOS header gives comes to the same modules as loading. -/
theorem loadFile_eq_ok_iff {dosHeader : DosHeader} {next : Int}
    (hdos : DosHeader.isAt file 0 = true) (hread : DosHeader.read file 0 = .ok (dosHeader, next))
    {path : String} {m : ModuleImage} :
    loadFile file ⟨false, none⟩ path = .ok m ↔ loadBehind file dosHeader path = .ok m := by
  rw [loadFile_behind hdos hread, loadBehind]
  constructor
  · intro h
    split at h
    · exact h
    · contradiction
    · contradiction
  · intro h
    obtain ⟨signature, hsignature⟩ := exists_signature_of_decode h
    rw [hsignature, HeaderKind.ofSignature_linear]
    exact h

/-- What loading a file comes to, by the bytes that it starts with. -/
theorem loadFile_paths (file : Source) (effort : Effort) (path : String) :
    (DosHeader.magic <+: file.toList → 64 ≤ file.size →
      ∃ dosHeader : DosHeader,
        (∀ order, DosHeader.read (file.withOrder order) 0 = .ok (dosHeader, 64)) ∧
        dosHeader.encode = file.toList.take 64 ∧
        ((∃ signature : Signature, file.pairAt dosHeader.moduleHeader = signature.toBytes) →
          loadFile file effort path =
            decode file dosHeader.moduleHeader effort path (some dosHeader)) ∧
        (file.pairAt dosHeader.moduleHeader = [0x50, 0x45] → loadFile file effort path =
          .error (.notImplemented "PE file format not implemented")) ∧
        (file.pairAt dosHeader.moduleHeader = [0x4e, 0x45] → loadFile file effort path =
          .error (.notImplemented "NE file format not implemented")) ∧
        ((∀ signature : Signature, file.pairAt dosHeader.moduleHeader ≠ signature.toBytes) →
          file.pairAt dosHeader.moduleHeader ≠ [0x50, 0x45] →
          file.pairAt dosHeader.moduleHeader ≠ [0x4e, 0x45] →
          loadFile file effort path = .error (.noHeader (.plainProgram path))) ∧
        (file.size ≤ dosHeader.moduleHeader →
          loadFile file effort path = .error (.noHeader (.plainProgram path))) ∧
        ∀ m, loadFile file ⟨false, none⟩ path = .ok m ↔ loadBehind file dosHeader path = .ok m) ∧
    (DosHeader.magic <+: file.toList → file.size < 64 →
      loadFile file effort path = .error (.truncated (.window 64 0 file.size))) ∧
    (¬DosHeader.magic <+: file.toList →
      ((∃ signature : Signature, file.pairAt 0 = signature.toBytes) →
        loadFile file effort path = decode file 0 effort path none) ∧
      ((∀ signature : Signature, file.pairAt 0 ≠ signature.toBytes) →
        loadFile file effort path = .error (.noHeader (.unknownFile path)))) := by
  refine ⟨fun hmagic hsize => ?_, fun hmagic hshort => ?_, fun hmagic => ⟨?_, ?_⟩⟩
  · have hdos : DosHeader.isAt file 0 = true := DosHeader.isAt_zero_iff.mpr hmagic
    obtain ⟨dosHeader, horder, hencode⟩ := DosHeader.exists_read_zero hdos hsize
    have hread : DosHeader.read file 0 = .ok (dosHeader, 64) := horder file.order
    have hload := loadFile_behind hdos hread effort path
    refine ⟨dosHeader, horder, hencode, ?_, ?_, ?_, ?_, ?_,
      fun m => loadFile_eq_ok_iff hdos hread⟩
    · rintro ⟨signature, hsignature⟩
      rw [hload, hsignature, HeaderKind.ofSignature_linear]
    · intro hpe
      rw [hload, hpe]
      rfl
    · intro hne
      rw [hload, hne]
      rfl
    · intro hlinear hpe hne
      rw [hload, HeaderKind.ofSignature_unknown hlinear hpe hne]
    · intro hend
      rw [hload, Source.pairAt_of_size_le hend]
      rfl
  · have hdos : DosHeader.isAt file 0 = true := DosHeader.isAt_zero_iff.mpr hmagic
    rw [loadFile, findModule, if_pos hdos, DosHeader.read_of_size_lt hdos hshort]
    rfl
  · rintro ⟨signature, hsignature⟩
    rw [loadFile_bare (Bool.eq_false_iff.mpr (mt DosHeader.isAt_zero_iff.mp hmagic)), hsignature,
      Signature.ofBytes?_eq_some_iff.mpr rfl]
    rfl
  · intro hnone
    rw [loadFile_bare (Bool.eq_false_iff.mpr (mt DosHeader.isAt_zero_iff.mp hmagic)),
      Signature.ofBytes?_eq_none_iff.mpr hnone]
    rfl

/-- The sample behind a DOS program that is all header. -/
def Blueprint.stubbedSample : Blueprint :=
  { sample with
    stub := DosHeader.magic ++ List.replicate 58 0 ++ [64, 0, 0, 0] }

/-- The sample is loaded from behind its DOS program and from the start of a file; a DOS program
that ends in its header is refused. -/
theorem loadFile_paths_sample :
    (∃ dosHeader m, dosHeader.encode = Blueprint.stubbedSample.stub ∧
      loadFile (Blueprint.stubbedSample.source .little) ⟨false, none⟩ "A" = .ok m ∧
      loadBehind (Blueprint.stubbedSample.source .little) dosHeader "A" = .ok m ∧
      m.headerOffset = 64) ∧
    loadFile ⟨⟨#[0x4d, 0x5a, 0]⟩, .little⟩ ⟨true, some 4⟩ "A" =
      .error (.truncated (.window 64 0 3)) ∧
    loadFile ⟨⟨#[0x4c, 0x58, 0]⟩, .little⟩ ⟨true, some 4⟩ "A" =
      decode ⟨⟨#[0x4c, 0x58, 0]⟩, .little⟩ 0 ⟨true, some 4⟩ "A" none := by
  refine ⟨?_, ?_, ?_⟩
  · obtain ⟨dosHeader, -, hencode, -, -, -, -, -, hboth⟩ :=
      (loadFile_paths (Blueprint.stubbedSample.source .little) ⟨false, none⟩ "A").1
        (by decide +kernel) (by decide +kernel)
    obtain ⟨m, hm, hoffset⟩ : ∃ m, loadFile (Blueprint.stubbedSample.source .little)
        ⟨false, none⟩ "A" = .ok m ∧ m.headerOffset = 64 :=
      Except.exists_eq_ok (by decide +kernel)
    exact ⟨dosHeader, m, hencode.trans (by decide +kernel), hm, (hboth m).mp hm, hoffset⟩
  · exact (loadFile_paths _ _ _).2.1 (by decide) (by decide)
  · exact ((loadFile_paths _ _ _).2.2 (by decide)).1 ⟨.lx, rfl⟩

end Files

end LinearExecutable
