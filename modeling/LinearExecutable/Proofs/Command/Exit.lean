import LinearExecutable.Command.Run
import LinearExecutable.Proofs.DosHeader
import LinearExecutable.Proofs.Image.Answers
import LinearExecutable.Proofs.Image.Chains
import LinearExecutable.Proofs.Image.Refusal

/-!
# The end of a run

A file that can be read is either decoded and reported on or refused with a line that says why. The
report only asks questions that a decoded module has answers to, and every failure of loading is one
that is reported; so nothing else can happen to a run, whatever it is asked to list.
-/

namespace LinearExecutable

open Fixup (Record)

/-! ## 1. Reports -/

namespace Report

variable {m : ModuleImage}

theorem exists_recordLine {r : Record} (h : r.Answers) : ∃ line, recordLine r = .ok line :=
  Except.exists_bind_ok h.kind fun _ => ⟨_, rfl⟩

theorem exists_chainLine {page : Int} {data : List UInt8} {head : Record} {outcome : ChainOutcome}
    (h : m.Follows page data head outcome) (number : Nat) (palette : Palette) :
    ∃ line, chainLine number palette outcome = .ok line := by
  cases h with
  | links hstart _ => exact ⟨_, by rw [chainLine, hstart]⟩
  | overflow _ _ => exact ⟨_, rfl⟩

section Answers

variable (hm : m.Answers)

include hm

theorem exists_pageFixups (palette : Palette) (resolveChains : Bool) {page : Nat}
    (hpage : page ∈ pageNumbers m) :
    ∃ lines, pageFixups m palette resolveChains page = .ok lines := by
  rw [pageNumbers, List.mem_range'_1] at hpage
  obtain ⟨records, data, _, _, outcomes, hrecords, -, -, -, hanswers, hchains, hfollows⟩ :=
    hm.pages page hpage.1 (by omega)
  rw [pageFixups, hrecords, Except.bind_ok]
  split
  · exact ⟨[], rfl⟩
  · refine Except.exists_bind_ok
      (Except.exists_mapM_ok fun r hr => exists_recordLine (hanswers r hr)) fun _ => ?_
    cases resolveChains with
    | false => exact ⟨_, rfl⟩
    | true =>
      rw [if_pos rfl, hchains, Except.bind_ok]
      refine Except.exists_bind_ok (Except.exists_mapM_ok fun outcome houtcome => ?_)
        fun _ => ⟨_, rfl⟩
      obtain ⟨head, -, hfollow⟩ := exists_left_of_forall₂ hfollows houtcome
      exact exists_chainLine hfollow page palette

theorem exists_fixups (palette : Palette) (resolveChains : Bool) :
    ∃ lines, fixups m palette resolveChains = .ok lines :=
  Except.exists_bind_ok
    (Except.exists_mapM_ok fun _ hpage => exists_pageFixups hm palette resolveChains hpage)
    fun _ => ⟨_, rfl⟩

theorem exists_chainLog : ∃ lines, chainLog m = .ok lines := by
  unfold chainLog
  refine Except.exists_bind_ok (Except.exists_mapM_ok fun page hpage => ?_) fun _ => ⟨_, rfl⟩
  rw [pageNumbers, List.mem_range'_1] at hpage
  obtain ⟨_, _, _, _, outcomes, -, -, -, -, -, hchains, -⟩ := hm.pages page hpage.1 (by omega)
  exact Except.exists_bind_ok ⟨outcomes, hchains⟩ fun _ => ⟨_, rfl⟩

theorem exists_imports (palette : Palette) : ∃ lines, imports m palette = .ok lines :=
  Except.exists_bind_ok hm.imports fun _ => ⟨_, rfl⟩

end Answers

end Report

/-! ## 2. Loading -/

theorem failsOnly_findModule (file : Source) (path : String) :
    FailsOnly (fun e => Command.isReported e = true) (findModule file path) := by
  unfold findModule
  split
  · rename_i hdos
    refine ((DosHeader.failsOnly_read hdos).mono ?_).bind fun (dosHeader, _) _ => ?_
    · rintro _ ⟨cause, rfl⟩
      rfl
    · dsimp only
      split
      · exact failsOnly_ok _
      · exact failsOnly_error rfl
      · exact failsOnly_error rfl
  · split
    · exact failsOnly_ok _
    · exact failsOnly_error rfl

/-- Every failure of loading a file is one that is reported. -/
theorem failsOnly_loadFile (file : Source) (effort : Fixup.Effort) (path : String) :
    FailsOnly (fun e => Command.isReported e = true) (loadFile file effort path) := by
  apply (failsOnly_findModule file path).bind
  intro entrance _
  have hdecode : FailsOnly (Error.OfModule effort.bestEffort)
      (ModuleImage.decode file entrance.offset effort path entrance.dosHeader?) := by
    rw [ModuleImage.decode_eq]
    apply (failsOnly_readTables file entrance.offset).bind
    intro t _
    refine (failsOnly_fixups t effort).bind fun (fixupPageTable, fixupPages) _ => ?_
    exact failsOnly_complete t _ path _ fixupPageTable fixupPages
  refine hdecode.mono fun e he => ?_
  cases e with
  | notImplemented _ => exact he.elim
  | _ => exact he.isDecodeError

theorem answers_of_loadFile {file : Source} {effort : Fixup.Effort} {path : String}
    {m : ModuleImage} (h : loadFile file effort path = .ok m) : m.Answers := by
  obtain ⟨entrance, -, hdecode⟩ := Except.bind_eq_ok_iff.mp h
  exact ModuleImage.answers_of_decode hdecode

/-! ## 3. Runs -/

namespace Command

theorem exists_reportLines {m : ModuleImage} (hm : m.Answers) (a : Arguments)
    (options : DecodeOptions) : ∃ lines, reportLines a options m = .ok lines := by
  obtain ⟨fixups, hfixups⟩ := Report.exists_fixups hm (palette a) options.resolveChains
  obtain ⟨imports, himports⟩ := Report.exists_imports hm (palette a)
  unfold reportLines
  dsimp only
  rw [hfixups, himports]
  split <;> split <;> exact ⟨_, rfl⟩

/-- A file that is read ends the run with zero if it is loaded and with one if it is refused. -/
theorem dump_cases (a : Arguments) (options : DecodeOptions) (file : String) (bytes : ByteArray) :
    ∃ outcome, dump a options file bytes = .ok outcome ∧
      (outcome.exitCode = 0 ∧ (∃ m, loadFile ⟨bytes, .little⟩ options.effort file = .ok m) ∨
        outcome.exitCode = 1 ∧ ∃ e, loadFile ⟨bytes, .little⟩ options.effort file = .error e) := by
  unfold dump
  dsimp only
  cases hload : loadFile ⟨bytes, .little⟩ options.effort file with
  | error e =>
    have hreported := failsOnly_loadFile _ _ _ e hload
    dsimp only
    rw [if_pos hreported]
    exact ⟨_, rfl, .inr ⟨rfl, e, rfl⟩⟩
  | ok m =>
    have hm := answers_of_loadFile hload
    obtain ⟨lines, hlines⟩ := exists_reportLines hm a options
    obtain ⟨log, hlog⟩ := Report.exists_chainLog hm
    dsimp only
    rw [hlines, hlog]
    split <;> exact ⟨_, rfl, .inl ⟨rfl, m, rfl⟩⟩

/-- A decoded module never fails late. It answers every question; and a run on a file that can be
read, with a configuration that can be used, ends with zero iff the file is loaded and with one iff
it is refused, whatever the run lists. -/
theorem exitCode_of_readable :
    (∀ (file : Source) (offset : Int) (effort : Fixup.Effort) (path : String)
      (dosHeader? : Option DosHeader) (m : ModuleImage),
      ModuleImage.decode file offset effort path dosHeader? = .ok m → m.Answers) ∧
    ∀ (files : Files) (texts : List String) (file : String) (a : Arguments)
      (config : DecodeOptions) (bytes : ByteArray),
      Arguments.read texts = .ok (file, a) → configOptions files a = .ok (.ok config) →
      lookUp files file = .ok (.holding bytes) →
      ∃ outcome, run files texts = .ok outcome ∧
        (outcome.exitCode = 0 ↔
          ∃ m, loadFile ⟨bytes, .little⟩ (a.decodeOptions config).effort file = .ok m) ∧
        (outcome.exitCode = 1 ↔
          ∃ e, loadFile ⟨bytes, .little⟩ (a.decodeOptions config).effort file = .error e) := by
  refine ⟨fun _ _ _ _ _ _ => ModuleImage.answers_of_decode,
    fun files texts file a config bytes hread hconfig hfile => ?_⟩
  obtain ⟨outcome, hdump, hcases⟩ := dump_cases a (a.decodeOptions config) file bytes
  have hrun : run files texts = dump a (a.decodeOptions config) file bytes := by
    rw [run, hread]
    dsimp only
    rw [hconfig, Except.bind_ok]
    dsimp only
    rw [hfile, Except.bind_ok]
  refine ⟨outcome, hrun.trans hdump, ?_⟩
  rcases hcases with ⟨hcode, m, hm⟩ | ⟨hcode, e, he⟩
  · rw [hm, hcode]
    simp
  · rw [he, hcode]
    simp

-- What the arguments of the sample run ask for.
theorem read_sample :
    Arguments.read ["A", "--fixups", "--chains", "--imports"] =
      .ok ("A", { Arguments.empty with
        file? := some "A", listFixups := true, resolveChains := true, listImports := true }) := by
  have hname : Text.normalPath "A" = "A" := by cbv
  have hread : Arguments.read ["A", "--fixups", "--chains", "--imports"] =
      .ok (Text.normalPath "A", { Arguments.empty with
        file? := some (Text.normalPath "A"), listFixups := true, resolveChains := true,
        listImports := true }) := rfl
  rw [hread, hname]

/-- A run that follows the chains of the sample ends with zero, and one on an empty file with
one. -/
theorem exitCode_of_readable_sample :
    (∃ outcome, run (fun _ => .holding (Blueprint.chainedSample.source .little).buffer)
      ["A", "--fixups", "--chains", "--imports"] = .ok outcome ∧ outcome.exitCode = 0) ∧
    ∃ outcome, run (fun _ => .holding ⟨#[]⟩)
      ["A", "--fixups", "--chains", "--imports"] = .ok outcome ∧ outcome.exitCode = 1 := by
  obtain ⟨-, hruns⟩ := exitCode_of_readable
  refine ⟨?_, ?_⟩
  · obtain ⟨outcome, hrun, hzero, -⟩ := hruns
      (fun _ => .holding (Blueprint.chainedSample.source .little).buffer) _ _ _ .default _
      read_sample rfl rfl
    obtain ⟨m, hm, -⟩ : ∃ m, loadFile (Blueprint.chainedSample.source .little) ⟨false, none⟩ "A" =
        .ok m ∧ m.order = .little := Except.exists_eq_ok (by decide +kernel)
    exact ⟨outcome, hrun, hzero.mpr ⟨m, hm⟩⟩
  · obtain ⟨outcome, hrun, -, hone⟩ :=
      hruns (fun _ => .holding ⟨#[]⟩) _ _ _ .default _ read_sample rfl rfl
    exact ⟨outcome, hrun, hone.mpr ⟨_, rfl⟩⟩

end Command

end LinearExecutable
