import LinearExecutable.Fixup.Pool
import LinearExecutable.Proofs.Bytes.Window
import Mathlib.Logic.Relation

/-!
# Schedules of a pool

The workers of a pool take the items of a list in any order and get done with them in any order.
Results are handed back in the order of the items, up to the first item that fails. `Step` lists
what can happen at any moment. Whatever happens, in whatever order, work comes to an end, and the
end is that of going through the list one item after another.
-/

namespace LinearExecutable.Pool

/-! ## 1. Steps -/

/-- How far the work on an item has come. -/
inductive Job (ε β : Type) where
  | waiting
  | running
  | done (outcome : Except ε β)
  /-- Given up before work on it started. -/
  | cancelled

namespace Job

variable {ε β : Type}

def isWaiting : Job ε β → Bool
  | waiting => true
  | _ => false

def isRunning : Job ε β → Bool
  | running => true
  | _ => false

end Job

/-- A pool at work: how far each item has come, the results that were handed back, and the error
that was raised instead of the next one. -/
structure State (ε β : Type) where
  jobs : List (Job ε β)
  results : List β
  raised? : Option ε

namespace State

variable {ε β : Type}

def initial {α : Type} (items : List α) : State ε β :=
  ⟨items.map fun _ => .waiting, [], none⟩

def running (s : State ε β) : Nat := s.jobs.countP Job.isRunning

def withJob (s : State ε β) (i : Nat) (job : Job ε β) : State ε β :=
  { s with jobs := s.jobs.set i job }

/-- What was handed back in the end. -/
def outcome (s : State ε β) : Except ε (List β) :=
  match s.raised? with
  | none => .ok s.results
  | some e => .error e

/-- The pool is done: no item waits or is worked on, and every item has its result handed back
unless an error was raised. -/
structure Finished (s : State ε β) : Prop where
  settled : ∀ job ∈ s.jobs, job.isWaiting = false ∧ job.isRunning = false
  answered : s.raised? = none → s.results.length = s.jobs.length

end State

section Schedules

variable {α β ε : Type} {f : α → Except ε β} {items : List α} {workers : Nat}

/-- What can happen to a pool. The outcome of an item is stored with the item and nowhere else. -/
inductive Step (f : α → Except ε β) (items : List α) (workers : Nat) :
    State ε β → State ε β → Prop
  /-- A worker that is free starts on any item that waits. -/
  | start {s : State ε β} {i : Nat} (h : s.jobs[i]? = some .waiting) (hfree : s.running < workers) :
      Step f items workers s (s.withJob i .running)
  /-- A worker is done with its item. -/
  | finish {s : State ε β} {i : Nat} {a : α} (h : s.jobs[i]? = some .running)
      (ha : items[i]? = some a) : Step f items workers s (s.withJob i (.done (f a)))
  /-- The result of the next item in order is handed back. -/
  | handBack {s : State ε β} {b : β} (hopen : s.raised? = none)
      (h : s.jobs[s.results.length]? = some (.done (.ok b))) :
      Step f items workers s { s with results := s.results ++ [b] }
  /-- The next item in order has failed. -/
  | raise {s : State ε β} {e : ε} (hopen : s.raised? = none)
      (h : s.jobs[s.results.length]? = some (.done (.error e))) :
      Step f items workers s { s with raised? := some e }
  /-- Behind an error, an item that waits is given up. -/
  | cancel {s : State ε β} {i : Nat} (hraised : s.raised?.isSome)
      (h : s.jobs[i]? = some .waiting) : Step f items workers s (s.withJob i .cancelled)

/-- The state can come about. -/
def Reaches (f : α → Except ε β) (items : List α) (workers : Nat) (s : State ε β) : Prop :=
  Relation.ReflTransGen (Step f items workers) (.initial items) s

/-! ## 2. What holds at every moment -/

/-- Items are worked on by at most as many workers as there are; an item is done with its own
outcome; what was handed back are the results of the first items; an error that was raised is that
of the item behind them, and only then are items given up. -/
structure Sound (f : α → Except ε β) (items : List α) (workers : Nat) (s : State ε β) : Prop where
  length : s.jobs.length = items.length
  bounded : s.running ≤ workers
  done : ∀ (i : Nat) (a : α) (outcome : Except ε β), items[i]? = some a →
    s.jobs[i]? = some (.done outcome) → outcome = f a
  results : (items.take s.results.length).mapM f = .ok s.results
  raised : ∀ e, s.raised? = some e → ∃ a, items[s.results.length]? = some a ∧ f a = .error e
  cancelled : s.raised? = none → ∀ i : Nat, s.jobs[i]? ≠ some .cancelled

-- Replacing an element changes a count by the two elements alone.
theorem countP_set {γ : Type} {p : γ → Bool} {l : List γ} {i : Nat} {x : γ} (h : l[i]? = some x)
    (y : γ) : (l.set i y).countP p + (p x).toNat = l.countP p + (p y).toNat := by
  obtain ⟨hlt, rfl⟩ := List.getElem?_eq_some_iff.mp h
  have hone : ∀ z, (if p z = true then 1 else 0) = (p z).toNat := fun z => by
    cases p z <;> rfl
  have hcounted := List.boole_getElem_le_countP (p := p) hlt
  rw [hone] at hcounted
  rw [List.countP_set hlt, hone, hone]
  omega

theorem running_withJob {s : State ε β} {i : Nat} {old : Job ε β} (h : s.jobs[i]? = some old)
    (job : Job ε β) :
    (s.withJob i job).running + old.isRunning.toNat = s.running + job.isRunning.toNat :=
  countP_set h job

theorem sound_initial : Sound f items workers (.initial items) where
  length := List.length_map _
  bounded := by
    rw [State.running, State.initial, List.countP_eq_zero.mpr]
    · exact Nat.zero_le _
    · rintro job hjob
      obtain ⟨_, -, rfl⟩ := List.mem_map.mp hjob
      exact Bool.false_ne_true
  done i a outcome _ h := by
    rw [State.initial, List.getElem?_map, Option.map_eq_some_iff] at h
    obtain ⟨_, -, hjob⟩ := h
    contradiction
  results := rfl
  raised e h := by contradiction
  cancelled _ i h := by
    rw [State.initial, List.getElem?_map, Option.map_eq_some_iff] at h
    obtain ⟨_, -, hjob⟩ := h
    contradiction

-- Putting an item further keeps what holds of the others.
theorem Sound.withJob {s : State ε β} (hs : Sound f items workers s) {i : Nat} {job : Job ε β}
    (hbounded : (s.withJob i job).running ≤ workers)
    (hdone : ∀ a outcome, items[i]? = some a → job = .done outcome → outcome = f a)
    (hcancelled : s.raised? = none → job ≠ .cancelled) :
    Sound f items workers (s.withJob i job) where
  length := (List.length_set).trans hs.length
  bounded := hbounded
  done j a outcome ha h := by
    rw [State.withJob, List.getElem?_set] at h
    split at h
    · rename_i hij
      subst hij
      split at h
      · exact hdone a outcome ha (Option.some.inj h)
      · contradiction
    · exact hs.done j a outcome ha h
  results := hs.results
  raised := hs.raised
  cancelled hopen j h := by
    rw [State.withJob, List.getElem?_set] at h
    split at h
    · split at h
      · exact hcancelled hopen (Option.some.inj h)
      · contradiction
    · exact hs.cancelled hopen j h

theorem Sound.step {s s' : State ε β} (hs : Sound f items workers s)
    (h : Step f items workers s s') : Sound f items workers s' := by
  cases h with
  | @start i hwaiting hfree =>
    refine hs.withJob ?_ (fun _ _ _ h => by contradiction) fun _ h => by contradiction
    have hrunning := running_withJob hwaiting .running
    simp only [Job.isRunning, Bool.toNat_true, Bool.toNat_false] at hrunning
    omega
  | @finish i a hrunning ha =>
    refine hs.withJob ?_ (fun a' outcome ha' hjob => ?_) fun _ h => by contradiction
    · have hrunning := running_withJob hrunning (.done (f a))
      have hbounded := hs.bounded
      simp only [Job.isRunning, Bool.toNat_true, Bool.toNat_false] at hrunning
      omega
    · rw [ha, Option.some.injEq] at ha'
      cases hjob
      rw [ha']
  | @handBack b hopen hnext =>
    obtain ⟨hlt, -⟩ := List.getElem?_eq_some_iff.mp hnext
    rw [hs.length] at hlt
    have hitem := List.getElem?_eq_getElem hlt
    have hb := hs.done _ _ _ hitem hnext
    refine ⟨hs.length, hs.bounded, hs.done, ?_, fun e he => ?_, hs.cancelled⟩
    · rw [List.length_append, List.length_singleton, List.take_add_one, hitem, Option.toList_some,
        List.mapM_append, hs.results, Except.bind_ok, List.mapM_cons, ← hb]
      rfl
    · rw [hopen] at he
      contradiction
  | @raise e hopen hnext =>
    obtain ⟨hlt, -⟩ := List.getElem?_eq_some_iff.mp hnext
    rw [hs.length] at hlt
    have hitem := List.getElem?_eq_getElem hlt
    have he := hs.done _ _ _ hitem hnext
    refine ⟨hs.length, hs.bounded, hs.done, hs.results, fun e' he' => ?_, fun h => ?_⟩
    · cases he'
      exact ⟨_, hitem, he.symm⟩
    · contradiction
  | @cancel i hraised hwaiting =>
    refine hs.withJob ?_ (fun _ _ _ h => by contradiction) fun hopen => ?_
    · have hrunning := running_withJob hwaiting .cancelled
      have hbounded := hs.bounded
      simp only [Job.isRunning, Bool.toNat_false] at hrunning
      omega
    · rw [hopen] at hraised
      contradiction

theorem sound_of_reaches {s : State ε β} (h : Reaches f items workers s) :
    Sound f items workers s := by
  induction h with
  | refl => exact sound_initial
  | tail _ hstep ih => exact ih.step hstep

/-! ## 3. Work comes to an end -/

/-- The steps that an item has left, itself and behind it. -/
def Job.left : Job ε β → Nat
  | waiting => 2
  | running => 1
  | done _ | cancelled => 0

/-- A bound for the number of steps that are left. -/
def State.left (s : State ε β) : Nat :=
  2 * s.jobs.countP Job.isWaiting + s.running + (s.jobs.length - s.results.length) +
    s.raised?.isNone.toNat

theorem left_withJob {s : State ε β} {i : Nat} {old : Job ε β} (h : s.jobs[i]? = some old)
    (job : Job ε β) : (s.withJob i job).left + old.left = s.left + job.left := by
  have hleft : ∀ job : Job ε β, job.left = 2 * job.isWaiting.toNat + job.isRunning.toNat :=
    fun job => by cases job <;> rfl
  have hwaits := countP_set (p := Job.isWaiting) h job
  have hruns := running_withJob h job
  rw [hleft, hleft, State.left, State.left, State.withJob, List.length_set]
  rw [State.withJob] at hruns
  dsimp only
  omega

theorem left_lt_of_step {s s' : State ε β} (h : Step f items workers s s') :
    s'.left < s.left := by
  cases h with
  | @start i hwaiting hfree =>
    have hleft := left_withJob hwaiting .running
    simp only [Job.left] at hleft
    omega
  | @finish i a hrunning ha =>
    have hleft := left_withJob hrunning (.done (f a))
    simp only [Job.left] at hleft
    omega
  | @handBack b hopen hnext =>
    obtain ⟨hlt, -⟩ := List.getElem?_eq_some_iff.mp hnext
    simp only [State.left, State.running, List.length_append, List.length_singleton]
    omega
  | @raise e hopen hnext =>
    simp only [State.left, State.running, hopen, Option.isNone_none, Option.isNone_some,
      Bool.toNat_true, Bool.toNat_false]
    omega
  | @cancel i hraised hwaiting =>
    have hleft := left_withJob hwaiting .cancelled
    simp only [Job.left] at hleft
    omega

-- Once every item is settled, only handing back or raising can be left.
theorem Sound.finished_or_step_of_settled {s : State ε β} (hs : Sound f items workers s)
    (hsettled : ∀ job ∈ s.jobs, job.isWaiting = false ∧ job.isRunning = false) :
    s.Finished ∨ ∃ s', Step f items workers s s' := by
  cases hraised : s.raised? with
  | some e => exact .inl ⟨hsettled, fun h => by rw [hraised] at h; contradiction⟩
  | none =>
    cases hnext : s.jobs[s.results.length]? with
    | none =>
      have hle := List.getElem?_eq_none_iff.mp hnext
      have hge := (Except.mapM_eq_ok_iff.mp hs.results).length_eq
      rw [List.length_take, ← hs.length] at hge
      exact .inl ⟨hsettled, fun _ => by omega⟩
    | some job =>
      have hjob := hsettled job (List.mem_of_getElem? hnext)
      cases job with
      | waiting => cases hjob.1
      | running => cases hjob.2
      | cancelled => exact absurd hnext (hs.cancelled hraised _)
      | done outcome =>
        cases outcome with
        | ok b => exact .inr ⟨_, .handBack hraised hnext⟩
        | error e => exact .inr ⟨_, .raise hraised hnext⟩

/-- With a worker at hand, a pool that is not done can go on. -/
theorem Sound.finished_or_step {s : State ε β} (hs : Sound f items workers s)
    (hworkers : 0 < workers) : s.Finished ∨ ∃ s', Step f items workers s s' := by
  by_cases hruns : ∃ i : Nat, s.jobs[i]? = some .running
  · obtain ⟨i, hi⟩ := hruns
    obtain ⟨hlt, -⟩ := List.getElem?_eq_some_iff.mp hi
    rw [hs.length] at hlt
    exact .inr ⟨_, .finish hi (List.getElem?_eq_getElem hlt)⟩
  · have hidle : ∀ job ∈ s.jobs, job.isRunning = false := by
      intro job hjob
      obtain ⟨i, hi⟩ := List.mem_iff_getElem?.mp hjob
      cases job with
      | running => exact absurd ⟨i, hi⟩ hruns
      | _ => rfl
    by_cases hwaits : ∃ i : Nat, s.jobs[i]? = some .waiting
    · obtain ⟨i, hi⟩ := hwaits
      have hfree : s.running = 0 := List.countP_eq_zero.mpr fun job hjob => by
        rw [hidle job hjob]
        exact Bool.false_ne_true
      exact .inr ⟨_, .start hi (by omega)⟩
    · refine hs.finished_or_step_of_settled fun job hjob => ⟨?_, hidle job hjob⟩
      obtain ⟨i, hi⟩ := List.mem_iff_getElem?.mp hjob
      cases job with
      | waiting => exact absurd ⟨i, hi⟩ hwaits
      | _ => rfl

/-- From every state that comes about, work can be brought to an end. -/
theorem exists_finished {s : State ε β} (h : Reaches f items workers s) (hworkers : 0 < workers) :
    ∃ t, Reaches f items workers t ∧ t.Finished := by
  induction hleft : s.left using Nat.strong_induction_on generalizing s with
  | _ left ih =>
    rcases (sound_of_reaches h).finished_or_step hworkers with hfinished | ⟨s', hstep⟩
    · exact ⟨s, h, hfinished⟩
    · exact ih _ (hleft ▸ left_lt_of_step hstep) (h.tail hstep) rfl

/-! ## 4. The end -/

/-- Going through items fails on the first one that fails. -/
theorem mapM_eq_error_iff {e : ε} :
    items.mapM f = .error e ↔
      ∃ k results a, (items.take k).mapM f = .ok results ∧ items[k]? = some a ∧ f a = .error e := by
  constructor
  · intro h
    induction items with
    | nil => contradiction
    | cons a items ih =>
      rw [List.mapM_cons] at h
      cases ha : f a with
      | error e' =>
        rw [ha] at h
        cases h
        exact ⟨0, [], a, rfl, rfl, ha⟩
      | ok b =>
        rw [ha, Except.bind_ok] at h
        cases hrest : items.mapM f with
        | error e' =>
          rw [hrest] at h
          cases h
          obtain ⟨k, results, a', hresults, hnext, hfails⟩ := ih hrest
          refine ⟨k + 1, b :: results, a', ?_, hnext, hfails⟩
          rw [List.take_succ_cons, List.mapM_cons, ha, Except.bind_ok, hresults]
          rfl
        | ok bs =>
          rw [hrest] at h
          contradiction
  · rintro ⟨k, results, a, hresults, hnext, hfails⟩
    obtain ⟨hlt, rfl⟩ := List.getElem?_eq_some_iff.mp hnext
    rw [← List.take_append_drop k items, List.mapM_append, hresults, Except.bind_ok,
      List.drop_eq_getElem_cons hlt, List.mapM_cons, hfails]
    rfl

/-- A pool that is done has come to what going through the items one by one comes to. -/
theorem Sound.outcome_eq {s : State ε β} (hs : Sound f items workers s) (h : s.Finished) :
    s.outcome = items.mapM f := by
  rw [State.outcome]
  cases hraised : s.raised? with
  | none =>
    have hall := (h.answered hraised).trans hs.length
    have hresults := hs.results
    rw [hall, List.take_length] at hresults
    exact hresults.symm
  | some e =>
    obtain ⟨a, hnext, hfails⟩ := hs.raised e hraised
    exact (mapM_eq_error_iff.mpr ⟨_, _, a, hs.results, hnext, hfails⟩).symm

end Schedules

end LinearExecutable.Pool
