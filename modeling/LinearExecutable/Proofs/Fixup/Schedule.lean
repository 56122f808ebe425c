import LinearExecutable.Proofs.Fixup.Pages
import LinearExecutable.Proofs.Fixup.Pool

/-!
# Decoding pages at the same time

Pages are decoded by a pool if there are several of them and several workers. Whatever its schedule,
the fixups, the diagnostics and the failure are those of decoding the pages one by one.
-/

namespace LinearExecutable.Fixup

/-- What decoding pages can come to. With several workers and several pages a pool decodes them, in
any of its schedules; else they are decoded one by one. -/
inductive ComesTo (source : Source) (table : Int) (offsets : List Int) (effort : Effort) :
    Except Error (List PageFixups) → Prop
  | loop (h : ∀ n, effort.workers? = some n → n ≤ 1 ∨ (pageRanges table offsets).length ≤ 1) :
      ComesTo source table offsets effort
        ((pageRanges table offsets).mapM (decodePage source effort.bestEffort))
  | pool {n : Int} {s : Pool.State Error PageFixups} (hworkers : effort.workers? = some n)
      (hseveral : 1 < n) (hpages : 1 < (pageRanges table offsets).length)
      (hreaches : Pool.Reaches (decodePage source effort.bestEffort) (pageRanges table offsets)
        n.toNat s) (hfinished : s.Finished) :
      ComesTo source table offsets effort s.outcome

theorem decodePages_eq (source : Source) (table : Int) (offsets : List Int) (effort : Effort) :
    decodePages source table offsets effort =
      (pageRanges table offsets).mapM (decodePage source effort.bestEffort) :=
  mapM_pageOutcomes source table offsets effort

theorem comesTo_iff {source : Source} {table : Int} {offsets : List Int} {effort : Effort}
    {outcome : Except Error (List PageFixups)} :
    ComesTo source table offsets effort outcome ↔
      outcome = decodePages source table offsets effort := by
  rw [decodePages_eq]
  constructor
  · intro h
    cases h with
    | loop _ => rfl
    | pool _ _ _ hreaches hfinished =>
      exact (Pool.sound_of_reaches hreaches).outcome_eq hfinished
  · rintro rfl
    by_cases hloop : ∀ n, effort.workers? = some n →
        n ≤ 1 ∨ (pageRanges table offsets).length ≤ 1
    · exact .loop hloop
    · push Not at hloop
      obtain ⟨n, hworkers, hseveral, hpages⟩ := hloop
      -- some schedule gets to its end, and the end is that of the loop
      obtain ⟨s, hreaches, hfinished⟩ : ∃ s, Pool.Reaches (decodePage source effort.bestEffort)
          (pageRanges table offsets) n.toNat s ∧ s.Finished :=
        Pool.exists_finished .refl (by omega)
      rw [← (Pool.sound_of_reaches hreaches).outcome_eq hfinished]
      exact .pool hworkers hseveral hpages hreaches hfinished

/-- Decoding the pages with a pool is decoding them one by one. Whatever the source, the offsets,
the mode and the number of workers, every schedule comes to the same end: the fixups of all pages,
with the diagnostics in the order of the pages, or the failure of the first page that fails. A
schedule never has more pages under way than workers, never gets stuck and does not go on for
ever. -/
theorem decodePages_of_schedule (source : Source) (table : Int) (offsets : List Int)
    (effort : Effort) :
    (∀ outcome, ComesTo source table offsets effort outcome ↔
      outcome = decodePages source table offsets ⟨effort.bestEffort, none⟩) ∧
    (∀ pages, decodePages source table offsets ⟨effort.bestEffort, none⟩ = .ok pages ↔
      List.Forall₂ (fun range kept => decodePage source effort.bestEffort range = .ok kept)
        (pageRanges table offsets) pages) ∧
    (∀ pages, decodePages source table offsets ⟨effort.bestEffort, none⟩ = .ok pages →
      (diagnosticsOf pages).Pairwise fun d d' => d.page < d'.page) ∧
    (∀ e, decodePages source table offsets ⟨effort.bestEffort, none⟩ = .error e ↔
      ∃ k kept range,
        ((pageRanges table offsets).take k).mapM (decodePage source effort.bestEffort) = .ok kept ∧
        (pageRanges table offsets)[k]? = some range ∧
        decodePage source effort.bestEffort range = .error e) ∧
    ∀ (workers : Nat) (s : Pool.State Error PageFixups), 0 < workers →
      Pool.Reaches (decodePage source effort.bestEffort) (pageRanges table offsets) workers s →
      s.running ≤ workers ∧
        (s.Finished ∨ ∃ s', Pool.Step (decodePage source effort.bestEffort)
          (pageRanges table offsets) workers s s') ∧
        ∀ s', Pool.Step (decodePage source effort.bestEffort) (pageRanges table offsets) workers
          s s' → s'.left < s.left := by
  have hsame : decodePages source table offsets ⟨effort.bestEffort, none⟩ =
      decodePages source table offsets effort := by
    rw [decodePages_eq, decodePages_eq]
  refine ⟨fun outcome => by rw [hsame, comesTo_iff], fun pages => ?_, fun pages h => ?_,
    fun e => ?_, fun workers s hworkers hreaches => ?_⟩
  · rw [decodePages_eq, Except.mapM_eq_ok_iff]
  · rw [decodePages_eq] at h
    exact (numbered_of_mapM h).pairwise_diagnosticsOf
  · rw [decodePages_eq, Pool.mapM_eq_error_iff]
  · have hs := Pool.sound_of_reaches hreaches
    exact ⟨hs.bounded, hs.finished_or_step hworkers, fun s' => Pool.left_lt_of_step⟩

/-- Three pages of which only the second one can be decoded. -/
def brokenPages : Source := ⟨⟨#[1, 0, 7, 0, 0, 0, 1, 5, 0, 4, 0]⟩, .little⟩

/-- Two workers are done with the last page before they are with the first one; what is raised is
the failure of the first page all the same. -/
theorem decodePages_of_schedule_brokenPages :
    ∃ s : Pool.State Error PageFixups,
      Pool.Reaches (decodePage brokenPages false) (pageRanges 0 [0, 2, 9, 11]) 2 s ∧ s.Finished ∧
      s.results = [] ∧
      s.outcome = decodePages brokenPages 0 [0, 2, 9, 11] ⟨false, none⟩ ∧
      s.outcome =
        .error (.unsupportedFixup ⟨.undefinedKind 1, some 1, some 0, some 1, some 0⟩) := by
  have hfails : decodePage brokenPages false ⟨1, 0, 2⟩ =
      .error (.unsupportedFixup ⟨.undefinedKind 1, some 1, some 0, some 1, some 0⟩) := by
    decide +kernel
  have hranges : pageRanges 0 [0, 2, 9, 11] = [⟨1, 0, 2⟩, ⟨2, 2, 7⟩, ⟨3, 9, 2⟩] := rfl
  obtain ⟨hends, -⟩ := decodePages_of_schedule brokenPages 0 [0, 2, 9, 11] ⟨false, some 2⟩
  rw [hranges]
  have hfirst : Pool.Reaches (decodePage brokenPages false) [⟨1, 0, 2⟩, ⟨2, 2, 7⟩, ⟨3, 9, 2⟩] 2
      ⟨[.running, .running, .waiting], [], none⟩ :=
    .tail (.tail .refl (.start (i := 0) rfl (by decide))) (.start (i := 1) rfl (by decide))
  have hlast : Pool.Reaches (decodePage brokenPages false) [⟨1, 0, 2⟩, ⟨2, 2, 7⟩, ⟨3, 9, 2⟩] 2
      ⟨[.running, .done (decodePage brokenPages false ⟨2, 2, 7⟩),
        .done (decodePage brokenPages false ⟨3, 9, 2⟩)], [], none⟩ :=
    .tail (.tail (.tail hfirst (.finish (i := 1) rfl rfl)) (.start (i := 2) rfl (by decide)))
      (.finish (i := 2) rfl rfl)
  have hreaches := (hlast.tail (.finish (i := 0) rfl rfl)).tail
    (.raise rfl (congrArg (fun x => some (Pool.Job.done x)) hfails))
  refine ⟨_, hreaches, ?finished, rfl,
    (hends _).mp (.pool rfl (by decide) (by decide) hreaches ?finished), rfl⟩
  exact ⟨List.forall_mem_cons.mpr ⟨⟨rfl, rfl⟩, List.forall_mem_cons.mpr ⟨⟨rfl, rfl⟩,
    List.forall_mem_singleton.mpr ⟨rfl, rfl⟩⟩⟩, fun h => by contradiction⟩

end LinearExecutable.Fixup
