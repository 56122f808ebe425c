/-!
# Working on several pages at a time

A pool handles the items of a list in batches; the items of a batch are worked on at the same time.
The results come back in the order of the items, so the size of the pool shows in the time that the
work takes and nowhere else.
-/

namespace LinearExecutable.Pool

/-- The first items of a list, as many as a batch has, and the rest. -/
def batchesOf {α : Type} (size : Nat) (items : List α) : List (List α) :=
  if items.length ≤ size + 1 then [items]
  else items.take (size + 1) :: batchesOf size (items.drop (size + 1))
termination_by items.length
decreasing_by
  simp
  omega

/-- Works on all items of a batch at the same time. -/
def mapBatch {α β : Type} (f : α → β) (items : List α) : List β :=
  (items.map fun item => Task.spawn fun _ => f item).map Task.get

/-- Works on all items, at most `workers` at the same time; without a number of workers, or with
fewer than two of them or of the items, one after another. -/
def map {α β : Type} (workers? : Option Int) (f : α → β) (items : List α) : List β :=
  match workers? with
  | some workers =>
    if 1 < workers ∧ 1 < items.length then
      (batchesOf (workers.toNat - 1) items).flatMap (mapBatch f)
    else items.map f
  | none => items.map f

theorem flatten_batchesOf {α : Type} (size : Nat) (items : List α) :
    (batchesOf size items).flatten = items := by
  fun_induction batchesOf size items with
  | case1 => simp
  | case2 items _ ih => simp [ih]

theorem mapBatch_eq {α β : Type} (f : α → β) (items : List α) : mapBatch f items = items.map f := by
  simp [mapBatch, Task.spawn, Function.comp_def]

/-- The number of workers does not show in the results. -/
theorem map_eq {α β : Type} (workers? : Option Int) (f : α → β) (items : List α) :
    map workers? f items = items.map f := by
  unfold map
  split
  · split
    · rename_i workers _
      rw [show mapBatch f = List.map f from funext (mapBatch_eq f), List.flatMap_def,
        ← List.map_flatten, flatten_batchesOf]
    · rfl
  · rfl

end LinearExecutable.Pool
