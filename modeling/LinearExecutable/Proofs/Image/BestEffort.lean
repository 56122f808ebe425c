import LinearExecutable.Proofs.Image.Fixups
import LinearExecutable.Proofs.Image.Refusal

/-!
# Strict decoding and best effort

Strict decoding stops at the first record that cannot be decoded; best effort notes it with its page
and goes on. The two runs are compared stage by stage: up to such a record they are the same, and
from there on best effort either fails for another reason or ends with the record noted first.
-/

namespace LinearExecutable

open Fixup (Diagnostic PageFixups PageRange)

/-! ## 1. Two runs -/

/-- A failure that is not about a fixup record. -/
def Error.IsOther (e : Error) : Prop :=
  ∀ fixup, e ≠ .unsupportedFixup fixup

theorem Error.OfModule.isOther {e : Error} (h : e.OfModule true) : e.IsOther := by
  rintro fixup rfl
  contradiction

/-- A strict run and one with best effort. They end alike, unless the strict run fails on a record:
then the other one has that record as the first one noted, or fails for another reason. -/
inductive Lenient {α : Type} (noted? : α → Option Diagnostic) :
    Except Error α → Except Error α → Prop
  | clean (a : α) (h : noted? a = none) : Lenient noted? (.ok a) (.ok a)
  | failed (e : Error) (h : e.IsOther) : Lenient noted? (.error e) (.error e)
  | noted (a : α) (d : Diagnostic) (h : noted? a = some d) :
      Lenient noted? (.error (.unsupportedFixup d.error)) (.ok a)
  | overtaken (fixup : UnsupportedFixup) (e : Error) (h : e.IsOther) :
      Lenient noted? (.error (.unsupportedFixup fixup)) (.error e)

section Runs

variable {α β : Type} {noted? : α → Option Diagnostic} {noted'? : β → Option Diagnostic}

-- A stage that is the same in both runs comes first.
theorem lenient_bind {x : Except Error α} {f g : α → Except Error β}
    (hx : FailsOnly Error.IsOther x) (h : ∀ a, x = .ok a → Lenient noted'? (f a) (g a)) :
    Lenient noted'? (x >>= f) (x >>= g) := by
  cases hcase : x with
  | error e => exact .failed e (hx e hcase)
  | ok a => exact h a hcase

/-- Stages that are the same in both runs come last. They keep what is noted and do not fail on a
record. -/
theorem Lenient.bind {x y : Except Error α} (h : Lenient noted? x y) {f : α → Except Error β}
    (hf : ∀ a, FailsOnly Error.IsOther (f a))
    (hnoted : ∀ a b, f a = .ok b → noted'? b = noted? a) :
    Lenient noted'? (x >>= f) (y >>= f) := by
  cases h with
  | failed e he => exact .failed e he
  | overtaken fixup e he => exact .overtaken fixup e he
  | clean a ha =>
    show Lenient noted'? (f a) (f a)
    cases hcase : f a with
    | error e => exact .failed e (hf a e hcase)
    | ok b => exact .clean b ((hnoted a b hcase).trans ha)
  | noted a d ha =>
    show Lenient noted'? (.error _) (f a)
    cases hcase : f a with
    | error e => exact .overtaken d.error e (hf a e hcase)
    | ok b => exact .noted b d ((hnoted a b hcase).trans ha)

/-- Of many elements, the first one with something noted counts. -/
theorem lenient_mapM {f g : α → Except Error β} (h : ∀ a, Lenient noted'? (f a) (g a))
    (as : List α) :
    Lenient (fun bs : List β => bs.findSome? noted'?) (as.mapM f) (as.mapM g) := by
  induction as with
  | nil => exact .clean [] rfl
  | cons a as ih =>
    rw [List.mapM_cons, List.mapM_cons]
    have ha := h a
    generalize f a = x, g a = y at ha ⊢
    cases ha with
    | failed e he => exact .failed e he
    | overtaken fixup e he => exact .overtaken fixup e he
    | clean b hb =>
      apply ih.bind
      · exact fun bs => failsOnly_ok (b :: bs)
      · rintro bs _ ⟨⟩
        rw [List.findSome?_cons, hb]
    | noted b d hb =>
      -- the strict run is over; the other one goes on and may fail for another reason
      show Lenient _ (.error _) (as.mapM g >>= fun bs => .ok (b :: bs))
      generalize as.mapM f = x, as.mapM g = y at ih ⊢
      cases ih with
      | failed e he | overtaken fixup e he => exact .overtaken d.error e he
      | clean bs hbs | noted bs d' hbs =>
        refine .noted (b :: bs) d ?_
        rw [List.findSome?_cons, hb]

namespace Lenient

variable {x y : Except Error α}

theorem ok_iff (h : Lenient noted? x y) {a : α} :
    x = .ok a ↔ y = .ok a ∧ noted? a = none := by
  cases h with
  | clean b hb =>
    rw [iff_self_and]
    rintro ⟨⟩
    exact hb
  | noted b d hb =>
    refine iff_of_false (fun hx => by cases hx) ?_
    rintro ⟨⟨⟩, hnone⟩
    cases hb.symm.trans hnone
  | _ => simp

theorem error_of_isOther (h : Lenient noted? x y) {e : Error} (he : e.IsOther)
    (hx : x = .error e) : y = .error e := by
  cases h with
  | clean => contradiction
  | failed => exact hx
  | noted | overtaken =>
    cases hx
    exact absurd rfl (he _)

theorem of_unsupportedFixup (h : Lenient noted? x y) {fixup : UnsupportedFixup}
    (hx : x = .error (.unsupportedFixup fixup)) :
    (∃ e, y = .error e ∧ e.IsOther) ∨ ∃ a d, y = .ok a ∧ noted? a = some d ∧ d.error = fixup := by
  cases h with
  | clean => contradiction
  | failed e he =>
    cases hx
    exact absurd rfl (he fixup)
  | noted a d ha =>
    cases hx
    exact .inr ⟨a, d, rfl, ha, rfl⟩
  | overtaken _ e he => exact .inl ⟨e, rfl, he⟩

-- Best effort does not fail on a record.
theorem failsOnly (h : Lenient noted? x y) : FailsOnly Error.IsOther y := by
  cases h with
  | clean a | noted a => exact failsOnly_ok a
  | failed e he | overtaken _ e he => exact failsOnly_error he

end Lenient

end Runs

/-! ## 2. Fixups -/

-- A page is kept whole in both runs, or fails in both, or the record that it stops at is noted.
theorem lenient_decodePage (source : Source) (range : PageRange) :
    Lenient PageFixups.diagnostic? (Fixup.decodePage source false range)
      (Fixup.decodePage source true range) := by
  unfold Fixup.decodePage Fixup.Decoded.keep
  generalize Fixup.decodeRange source range.offset range.length range.page = d
  obtain ⟨records, failure?⟩ := d
  cases failure? with
  | none => exact .clean _ rfl
  | some e =>
    cases e with
    | unsupportedFixup fixup => exact .noted _ ⟨range.page, fixup⟩ rfl
    | _ =>
      apply Lenient.failed
      rintro fixup ⟨⟩

-- What best effort notes of a page is the record that strict decoding fails on.
theorem diagnostic_iff_of_decodePage {source : Source} {range : PageRange} {kept : PageFixups}
    (h : Fixup.decodePage source true range = .ok kept) (fixup : UnsupportedFixup) :
    kept.diagnostic? = some ⟨range.page, fixup⟩ ↔
      (Fixup.decodeRange source range.offset range.length range.page).strict =
        .error (.unsupportedFixup fixup) := by
  unfold Fixup.Decoded.strict
  rcases Fixup.keep_eq_ok_iff.mp h with ⟨hfailure, rfl⟩ | ⟨found, -, hfailure, rfl⟩
  · simp [hfailure]
  · simp [hfailure]

-- The records that are kept of a page are those of the bytes that they take up.
theorem decodeRange_of_tiles {source : Source} {range : PageRange} {kept : PageFixups}
    (h : Fixup.Tiles source range kept) (page : Int) :
    (Fixup.decodeRange source range.offset (Fixup.totalSize kept.records) page).strict =
      .ok kept.records :=
  Fixup.decodeRange_eq_ok_iff.mpr ⟨h.records, h.held, h.size⟩

theorem lenient_fixups (t : Tables) (workers? workers'? : Option Int) :
    Lenient (fun fixups : List Nat × List PageFixups => (Fixup.diagnosticsOf fixups.2).head?)
      (t.fixups ⟨false, workers?⟩) (t.fixups ⟨true, workers'?⟩) := by
  apply lenient_bind ((failsOnly_fixupPageTable? t).mono fun _ he => he.isOther)
  intro offsets? _
  cases offsets? with
  | none =>
    refine .clean _ ?_
    rw [Fixup.diagnosticsOf, List.head?_filterMap, List.findSome?_map]
    exact List.findSome?_eq_none_iff.mpr fun _ _ => rfl
  | some offsets =>
    simp only [Tables.fixupOutcomes, Fixup.mapM_pageOutcomes]
    apply (lenient_mapM (lenient_decodePage t.source) _).bind
    · exact fun pages => failsOnly_ok _
    · rintro pages _ ⟨⟩
      exact List.head?_filterMap

/-! ## 3. Modules -/

namespace ModuleImage

-- What is noted of the pages is what the module shows.
theorem diagnostics_of_complete {t : Tables} {offset : Int} {path : String}
    {dosHeader? : Option DosHeader} {fixupPageTable : List Nat} {fixupPages : List PageFixups}
    {m : ModuleImage} (h : t.complete offset path dosHeader? fixupPageTable fixupPages = .ok m) :
    m.diagnostics = Fixup.diagnosticsOf fixupPages := by
  unfold Tables.complete at h
  simp only [Except.bind_eq_ok_iff] at h
  obtain ⟨_, -, _, -, _, -, _, -, h⟩ := h
  cases h
  rfl

/-- Strict decoding and decoding with best effort, however many workers they have. -/
theorem lenient_decode (file : Source) (offset : Int) (workers? workers'? : Option Int)
    (path : String) (dosHeader? : Option DosHeader) :
    Lenient (fun m => m.diagnostics.head?) (decode file offset ⟨false, workers?⟩ path dosHeader?)
      (decode file offset ⟨true, workers'?⟩ path dosHeader?) := by
  rw [decode_eq, decode_eq]
  apply lenient_bind ((failsOnly_readTables file offset).mono fun _ he => he.isOther)
  intro t _
  apply (lenient_fixups t workers? workers'?).bind
  · rintro ⟨fixupPageTable, fixupPages⟩
    exact (failsOnly_complete t offset path dosHeader? _ _).mono fun _ he => he.isOther
  · rintro ⟨fixupPageTable, fixupPages⟩ m hm
    rw [diagnostics_of_complete hm]

-- The pages of a module that was decoded with best effort, one by one.
theorem page_of_bestEffort {file : Source} {offset : Int} {workers? : Option Int} {path : String}
    {dosHeader? : Option DosHeader} {m : ModuleImage}
    (h : decode file offset ⟨true, workers?⟩ path dosHeader? = .ok m)
    (htable : m.fixupPageTable ≠ []) {p : Nat} (hfirst : 1 ≤ p) (hlast : p ≤ m.header.pageCount) :
    ∃ start stop records, m.fixupPageTable[p - 1]? = some start ∧
      m.fixupPageTable[p]? = some stop ∧ m.fixups[p - 1]? = some records ∧
      (∀ page, (Fixup.decodeRange (file.withOrder m.order) (m.recordTable + start)
        (Fixup.totalSize records) page).strict = .ok records) ∧
      ∀ fixup, ⟨p, fixup⟩ ∈ m.diagnostics ↔
        (Fixup.decodeRange (file.withOrder m.order) (m.recordTable + start) (stop - start)
          p).strict = .error (.unsupportedFixup fixup) := by
  obtain ⟨start, stop, kept, hstart, hstop, -, hrecords, hmem, hpage⟩ :=
    exists_page_of_decode h htable hfirst hlast
  have htiles := Fixup.tiles_of_decodePage hpage
  refine ⟨start, stop, kept.records, hstart, hstop, hrecords, decodeRange_of_tiles htiles,
    fun fixup => ?_⟩
  rw [← diagnostic_iff_of_decodePage hpage fixup, ← hmem, and_iff_left rfl]

/-- Best effort against strict decoding, whatever the numbers of workers. Strict decoding gives a
module iff best effort gives the same one without diagnostics. A failure that is not about a record
is the same in both. Where strict decoding fails on a record, best effort fails for another reason
or notes that record first; it never fails on a record itself. And it keeps of every page what
strict decoding makes of the bytes in front of the record that it notes, if there is one. -/
theorem decode_bestEffort (file : Source) (offset : Int) (workers? workers'? : Option Int)
    (path : String) (dosHeader? : Option DosHeader) :
    let strict := decode file offset ⟨false, workers?⟩ path dosHeader?
    let best := decode file offset ⟨true, workers'?⟩ path dosHeader?
    (∀ m, strict = .ok m ↔ best = .ok m ∧ m.diagnostics = []) ∧
    (∀ e, (∀ fixup, e ≠ .unsupportedFixup fixup) → strict = .error e → best = .error e) ∧
    (∀ fixup, strict = .error (.unsupportedFixup fixup) →
      (∃ e, best = .error e ∧ ∀ other, e ≠ .unsupportedFixup other) ∨
      ∃ m d rest, best = .ok m ∧ m.diagnostics = d :: rest ∧ d.error = fixup) ∧
    (∀ fixup, best ≠ .error (.unsupportedFixup fixup)) ∧
    ∀ m, best = .ok m → ∀ p : Nat, 1 ≤ p → p ≤ m.header.pageCount →
      (m.fixupPageTable = [] → m.fixups[p - 1]? = some [] ∧ ∀ d ∈ m.diagnostics, d.page ≠ p) ∧
      (m.fixupPageTable ≠ [] →
        ∃ start stop records, m.fixupPageTable[p - 1]? = some start ∧
          m.fixupPageTable[p]? = some stop ∧ m.fixups[p - 1]? = some records ∧
          (∀ page, (Fixup.decodeRange (file.withOrder m.order) (m.recordTable + start)
            (Fixup.totalSize records) page).strict = .ok records) ∧
          ∀ fixup, ⟨p, fixup⟩ ∈ m.diagnostics ↔
            (Fixup.decodeRange (file.withOrder m.order) (m.recordTable + start) (stop - start)
              p).strict = .error (.unsupportedFixup fixup)) := by
  intro strict best
  have hruns := lenient_decode file offset workers? workers'? path dosHeader?
  refine ⟨fun m => ?_, fun e he hstrict => hruns.error_of_isOther he hstrict,
    fun fixup hstrict => ?_, fun fixup hbest => hruns.failsOnly _ hbest fixup rfl,
    fun m hbest p hfirst hlast => ⟨fun hnil => ?_, fun htable => ?_⟩⟩
  · rw [← List.head?_eq_none_iff]
    exact hruns.ok_iff
  · rcases hruns.of_unsupportedFixup hstrict with hother | ⟨m, d, hbest, hnoted, hd⟩
    · exact .inl hother
    · obtain ⟨rest, hrest⟩ := List.head?_eq_some_iff.mp hnoted
      exact .inr ⟨m, d, rest, hbest, hrest, hd⟩
  · obtain ⟨hfixups, hdiagnostics⟩ := fixups_of_no_table hbest hnil
    refine ⟨?_, fun d hd => ?_⟩
    · rw [hfixups, List.getElem?_replicate, if_pos (by omega)]
    · rw [hdiagnostics] at hd
      contradiction
  · exact page_of_bestEffort hbest htable hfirst hlast

/-- The broken sample is refused by strict decoding, for the record that best effort notes. -/
theorem decode_bestEffort_brokenSample :
    decode (Blueprint.brokenSample.source .little) 3 ⟨false, none⟩ "SAMPLE.EXE" none =
      .error (.unsupportedFixup ⟨.undefinedKind 1, some 1, some 0, some 1, some 292⟩) := by
  obtain ⟨m, hm, -, -, hdiagnostics, -⟩ := decode_brokenSample
  obtain ⟨hclean, hother, hfixup, -⟩ :=
    decode_bestEffort (Blueprint.brokenSample.source .little) 3 none none "SAMPLE.EXE" none
  cases hstrict : decode (Blueprint.brokenSample.source .little) 3 ⟨false, none⟩ "SAMPLE.EXE" none
    with
  | ok m' =>
    obtain ⟨hbest, hnone⟩ := (hclean m').mp hstrict
    cases hm.symm.trans hbest
    rw [hdiagnostics] at hnone
    exact absurd hnone (List.cons_ne_nil _ _)
  | error e =>
    by_cases he : ∃ fixup, e = .unsupportedFixup fixup
    · obtain ⟨fixup, rfl⟩ := he
      rcases hfixup fixup hstrict with ⟨e, hbest, -⟩ | ⟨m', d, rest, hbest, hrest, rfl⟩
      · cases hm.symm.trans hbest
      · cases hm.symm.trans hbest
        cases hdiagnostics.symm.trans hrest
        rfl
    · have hbest := hother e (fun fixup heq => he ⟨fixup, heq⟩) hstrict
      cases hm.symm.trans hbest

end ModuleImage

end LinearExecutable
