import LinearExecutable.IteratedPage
import LinearExecutable.Proofs.Bytes.Packing

/-!
# Expanding iterated pages

The data of an iterated page are whole records and something behind them that is none: fewer than
four bytes, or a record whose pattern is cut off. The page is what the whole records spell, cut at
the page size. It is refused iff it is not yet full where a pattern is cut off, so what stands
behind a full page does not matter.
-/

namespace LinearExecutable.IteratedPage

/-! ## 1. Records -/

/-- The two numbers of a record fit their words. -/
def Run.Fits (run : Run) : Prop :=
  run.repeats < Word.bound 2 ∧ run.pattern.length < Word.bound 2

instance (run : Run) : Decidable run.Fits :=
  inferInstanceAs (Decidable (_ ∧ _))

/-- A record that has both of its numbers, but not all of its pattern. -/
def CutOff (order : ByteOrder) (bytes : List UInt8) : Prop :=
  ∃ repeats length part, repeats < Word.bound 2 ∧ length < Word.bound 2 ∧ part.length < length ∧
    bytes = order.wordBytes 2 repeats ++ order.wordBytes 2 length ++ part

theorem CutOff.four_le_length {order : ByteOrder} {bytes : List UInt8} (h : CutOff order bytes) :
    4 ≤ bytes.length := by
  obtain ⟨repeats, length, part, -, -, -, rfl⟩ := h
  simp only [List.length_append, ByteOrder.length_wordBytes]
  omega

theorem Run.length_encode (order : ByteOrder) (run : Run) :
    (run.encode order).length = 4 + run.pattern.length := by
  simp only [Run.encode, List.length_append, ByteOrder.length_wordBytes]

/-- Whatever the data, they are whole records and something behind them that is none. -/
theorem exists_runs (order : ByteOrder) (data : List UInt8) :
    ∃ (runs : List Run) (rest : List UInt8), (∀ run ∈ runs, run.Fits) ∧
      data = runs.flatMap (Run.encode order) ++ rest ∧ (rest.length < 4 ∨ CutOff order rest) := by
  -- every whole record is followed by fewer bytes
  induction hlen : data.length using Nat.strong_induction_on generalizing data with
  | _ n ih =>
    match data with
    | [] | [_] | [_, _] | [_, _, _] => exact ⟨[], _, by simp, rfl, .inl (by simp)⟩
    | b₀ :: b₁ :: b₂ :: b₃ :: behind =>
      have hrepeats := order.word_lt [b₀, b₁]
      have hlength := order.word_lt [b₂, b₃]
      have hhead : b₀ :: b₁ :: b₂ :: b₃ :: behind =
          order.wordBytes 2 (order.word [b₀, b₁]) ++ order.wordBytes 2 (order.word [b₂, b₃]) ++
            behind := by
        rw [show 2 = [b₀, b₁].length from rfl, order.wordBytes_word,
          show [b₀, b₁].length = [b₂, b₃].length from rfl, order.wordBytes_word]
        rfl
      by_cases hcut : behind.length < order.word [b₂, b₃]
      · exact ⟨[], _, by simp, rfl, .inr ⟨_, _, behind, hrepeats, hlength, hcut, hhead⟩⟩
      · have hpattern : (behind.take (order.word [b₂, b₃])).length = order.word [b₂, b₃] := by
          rw [List.length_take]
          omega
        obtain ⟨runs, rest, hruns, hbehind, hrest⟩ :=
          ih (behind.drop (order.word [b₂, b₃])).length
            (by simp only [List.length_drop, List.length_cons] at hlen ⊢; omega) _ rfl
        have hfits : Run.Fits ⟨order.word [b₀, b₁], behind.take (order.word [b₂, b₃])⟩ :=
          ⟨hrepeats, hpattern.trans_lt hlength⟩
        refine ⟨_ :: runs, rest, List.forall_mem_cons.mpr ⟨hfits, hruns⟩, ?_, hrest⟩
        rw [List.flatMap_cons, Run.encode, hpattern, List.append_assoc, ← hbehind,
          List.append_assoc, List.take_append_drop, hhead]

/-! ## 2. Expanding them -/

theorem fill_eq_take (pattern : List UInt8) (repeats room : Nat) :
    Run.fill pattern repeats room = (Run.toList ⟨repeats, pattern⟩).take room := by
  unfold Run.toList
  dsimp only
  induction repeats generalizing room with
  | zero => rw [Run.fill, List.replicate_zero, List.flatten_nil, List.take_nil]
  | succ repeats ih =>
    rw [Run.fill, List.replicate_succ, List.flatten_cons, List.take_append]
    split
    · rename_i hnone
      rw [hnone, Nat.zero_sub, List.take_zero, List.take_zero, List.append_nil]
    · have hleft : room - (pattern.take room).length = room - pattern.length := by
        rw [List.length_take]
        omega
      dsimp only
      rw [ih, hleft]

theorem expandFrom_of_full (order : ByteOrder) (offset : Nat) (bytes : List UInt8) :
    expandFrom order offset 0 bytes = .ok [] := by
  unfold expandFrom
  split <;> rfl

theorem expandFrom_of_short (order : ByteOrder) (offset room : Nat) {bytes : List UInt8}
    (h : bytes.length < 4) : expandFrom order offset room bytes = .ok [] := by
  unfold expandFrom
  split
  · simp at h
    omega
  · rfl

-- A record is read as it was written, up to its pattern.
theorem expandFrom_of_head {order : ByteOrder} {offset room repeats length : Nat}
    {behind : List UInt8} (hroom : room ≠ 0) (hrepeats : repeats < Word.bound 2)
    (hlength : length < Word.bound 2) :
    expandFrom order offset room
        (order.wordBytes 2 repeats ++ order.wordBytes 2 length ++ behind) =
      if (behind.take length).length < length then .error (.truncated (.iterated offset))
      else do
        let spelled := Run.fill (behind.take length) repeats room
        let others ← expandFrom order (offset + 4 + length) (room - spelled.length)
          (behind.drop length)
        return spelled ++ others := by
  obtain ⟨b₀, b₁, hfirst⟩ := List.length_eq_two.mp (order.length_wordBytes 2 repeats)
  obtain ⟨b₂, b₃, hsecond⟩ := List.length_eq_two.mp (order.length_wordBytes 2 length)
  have hfirstWord : order.word [b₀, b₁] = repeats := hfirst ▸ order.word_wordBytes hrepeats
  have hsecondWord : order.word [b₂, b₃] = length := hsecond ▸ order.word_wordBytes hlength
  rw [hfirst, hsecond]
  show expandFrom order offset room (b₀ :: b₁ :: b₂ :: b₃ :: behind) = _
  rw [expandFrom, if_neg hroom, hfirstWord, hsecondWord]
  dsimp only
  split <;> rfl

theorem expandFrom_encode {order : ByteOrder} {offset room : Nat} {run : Run} {rest : List UInt8}
    (hrun : run.Fits) :
    expandFrom order offset room (run.encode order ++ rest) =
      (expandFrom order (offset + (run.encode order).length) (room - run.toList.length) rest).map
        (run.toList.take room ++ ·) := by
  by_cases hroom : room = 0
  · rw [hroom, Nat.zero_sub, expandFrom_of_full, expandFrom_of_full]
    rfl
  · have htake : (run.pattern ++ rest).take run.pattern.length = run.pattern :=
      List.take_left' rfl
    have hleft : room - (run.toList.take room).length = room - run.toList.length := by
      rw [List.length_take]
      omega
    rw [Run.encode, List.append_assoc, expandFrom_of_head hroom hrun.1 hrun.2, htake,
      List.drop_left' rfl, if_neg (Nat.lt_irrefl _), fill_eq_take, ← Run.encode,
      Run.length_encode, ← Nat.add_assoc]
    dsimp only
    rw [hleft]
    generalize expandFrom _ _ _ _ = others
    cases others <;> rfl

/-- Whole records spell what their runs do, as far as there is room; what is behind them is
looked at only if there is room left. -/
theorem expandFrom_flatMap_encode {order : ByteOrder} {offset room : Nat} {runs : List Run}
    {rest : List UInt8} (hruns : ∀ run ∈ runs, run.Fits) :
    expandFrom order offset room (runs.flatMap (Run.encode order) ++ rest) =
      (expandFrom order (offset + (runs.flatMap (Run.encode order)).length)
        (room - (runs.flatMap Run.toList).length) rest).map
          ((runs.flatMap Run.toList).take room ++ ·) := by
  -- the place and the room that is left move on with the records
  induction runs generalizing offset room with
  | nil =>
    rw [List.flatMap_nil, List.flatMap_nil, List.take_nil]
    show expandFrom order offset room rest = (expandFrom order offset room rest).map _
    cases expandFrom order offset room rest <;> rfl
  | cons run runs ih =>
    rw [List.forall_mem_cons] at hruns
    have hplace : offset + (run.encode order).length +
        (runs.flatMap (Run.encode order)).length =
          offset + (run.encode order ++ runs.flatMap (Run.encode order)).length := by
      rw [List.length_append, Nat.add_assoc]
    have hleft : room - run.toList.length - (runs.flatMap Run.toList).length =
        room - (run.toList ++ runs.flatMap Run.toList).length := by
      rw [List.length_append, Nat.sub_sub]
    rw [List.flatMap_cons, List.flatMap_cons, List.append_assoc, expandFrom_encode hruns.1,
      ih hruns.2, hplace, hleft, List.take_append]
    generalize expandFrom _ _ _ _ = others
    cases others with
    | error e => rfl
    | ok bytes => exact congrArg Except.ok (List.append_assoc _ _ _).symm

/-! ## 3. Pages -/

/-- The page that some data spell, from the whole records that they start with. -/
theorem expand_eq {order : ByteOrder} {pageSize : Int} {runs : List Run} {rest : List UInt8}
    (hruns : ∀ run ∈ runs, run.Fits) (hrest : rest.length < 4 ∨ CutOff order rest) :
    expand order pageSize (runs.flatMap (Run.encode order) ++ rest) =
      if 4 ≤ rest.length ∧ ((runs.flatMap Run.toList).length : Int) < pageSize then
        .error (.truncated (.iterated (runs.flatMap (Run.encode order)).length))
      else .ok ((runs.flatMap Run.toList).take pageSize.toNat) := by
  rw [expand, expandFrom_flatMap_encode hruns, Nat.zero_add]
  rcases hrest with hshort | hcut
  · rw [if_neg (by omega), expandFrom_of_short _ _ _ hshort]
    exact congrArg Except.ok (List.append_nil _)
  · have hlong := hcut.four_le_length
    by_cases hroom : ((runs.flatMap Run.toList).length : Int) < pageSize
    · obtain ⟨repeats, length, part, hrepeats, hlength, hpart, rfl⟩ := hcut
      have hpartial : (part.take length).length < length := by
        rw [List.length_take]
        omega
      rw [if_pos ⟨hlong, hroom⟩, expandFrom_of_head (by omega) hrepeats hlength, if_pos hpartial]
      rfl
    · have hfull : pageSize.toNat - (runs.flatMap Run.toList).length = 0 := by omega
      rw [if_neg fun h => hroom h.2, hfull, expandFrom_of_full]
      exact congrArg Except.ok (List.append_nil _)

/-- What iterated pages expand to. Records with fewer than four bytes behind them spell what their
runs do, cut at the page size. A smaller page is the start of a larger one. Nothing is refused but
data whose whole records do not fill the page and end at a record that is cut off; that record is
named. -/
theorem expand_records :
    (∀ (order : ByteOrder) (runs : List Run) (tail : List UInt8) (pageSize : Nat),
      (∀ run ∈ runs, run.Fits) → tail.length < 4 →
        expand order pageSize (runs.flatMap (Run.encode order) ++ tail) =
          .ok ((runs.flatMap Run.toList).take pageSize)) ∧
    (∀ (order : ByteOrder) (data bytes : List UInt8) (p q : Nat), p ≤ q →
      expand order q data = .ok bytes → expand order p data = .ok (bytes.take p)) ∧
    ∀ (order : ByteOrder) (data : List UInt8) (pageSize : Int),
      (∀ bytes, expand order pageSize data = .ok bytes → 0 ≤ pageSize →
        (bytes.length : Int) ≤ pageSize) ∧
      ∀ e, expand order pageSize data = .error e ↔
        ∃ (runs : List Run) (rest : List UInt8), (∀ run ∈ runs, run.Fits) ∧
          data = runs.flatMap (Run.encode order) ++ rest ∧ CutOff order rest ∧
          ((runs.flatMap Run.toList).length : Int) < pageSize ∧
          e = .truncated (.iterated (runs.flatMap (Run.encode order)).length) := by
  refine ⟨fun order runs tail pageSize hruns htail => ?_,
    fun order data bytes p q hle h => ?_, fun order data pageSize => ⟨fun bytes h hnonneg => ?_,
      fun e => ⟨fun h => ?_, ?_⟩⟩⟩
  · rw [expand_eq hruns (.inl htail), if_neg (by omega), Int.toNat_natCast]
  · obtain ⟨runs, rest, hruns, rfl, hrest⟩ := exists_runs order data
    rw [expand_eq hruns hrest] at h ⊢
    split at h
    · contradiction
    · rename_i hgood
      cases h
      -- what does not stop the larger page does not stop the smaller one
      rw [if_neg (by omega), List.take_take, Int.toNat_natCast, Int.toNat_natCast,
        Nat.min_eq_left hle]
  · obtain ⟨runs, rest, hruns, rfl, hrest⟩ := exists_runs order data
    rw [expand_eq hruns hrest] at h
    split at h
    · contradiction
    · cases h
      rw [List.length_take]
      omega
  · obtain ⟨runs, rest, hruns, rfl, hrest⟩ := exists_runs order data
    rw [expand_eq hruns hrest] at h
    split at h
    · rename_i hbad
      cases h
      exact ⟨runs, rest, hruns, rfl, hrest.resolve_left (by omega), hbad.2, rfl⟩
    · contradiction
  · rintro ⟨runs, rest, hruns, rfl, hcut, hroom, rfl⟩
    rw [expand_eq hruns (.inr hcut), if_pos ⟨hcut.four_le_length, hroom⟩]

/-- Runs that spell nothing do not end a page. A record that is cut off does not matter behind a
full page, and is refused behind one that has room for a byte more. -/
theorem expand_records_sample :
    expand .big 5 (([⟨2, [5, 6, 7]⟩, ⟨0, [1]⟩, ⟨9, []⟩] : List Run).flatMap (Run.encode .big) ++
        [0, 1, 0]) = .ok [5, 6, 7, 5, 6] ∧
      expand .little 6 [2, 0, 3, 0, 5, 6, 7, 1, 0, 4, 0, 9] = .ok [5, 6, 7, 5, 6, 7] ∧
      expand .little 4 [2, 0, 3, 0, 5, 6, 7, 1, 0, 4, 0, 9] = .ok [5, 6, 7, 5] ∧
      expand .little 7 [2, 0, 3, 0, 5, 6, 7, 1, 0, 4, 0, 9] =
        .error (.truncated (.iterated 7)) := by
  obtain ⟨hwhole, hsmaller, hdata⟩ := expand_records
  have hfull : expand .little (6 : Nat) [2, 0, 3, 0, 5, 6, 7, 1, 0, 4, 0, 9] =
      .ok [5, 6, 7, 5, 6, 7] := by decide +kernel
  refine ⟨hwhole .big _ _ 5 (by decide) (by decide), hfull,
    hsmaller .little _ _ 4 6 (by decide) hfull, ((hdata .little _ 7).2 _).mpr ?_⟩
  exact ⟨[⟨2, [5, 6, 7]⟩], [1, 0, 4, 0, 9], by decide, rfl,
    ⟨1, 4, [9], by decide, by decide, by decide, rfl⟩, by decide, rfl⟩

end LinearExecutable.IteratedPage
