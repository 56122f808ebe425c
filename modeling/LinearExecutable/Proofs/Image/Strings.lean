import LinearExecutable.Proofs.Image.MemoryMap

/-!
# Strings in memory

Strings are looked for among the initialised bytes from an address on, while a read shows these
bytes with zeros behind them, up to the end of the object. For strings of single bytes that makes
no difference. A string of two-byte units agrees with memory unless the initialised bytes end in
the middle of a unit that is not zero: that unit is left out, although a read shows it.
-/

namespace LinearExecutable

open Fixup (Effort)

/-! ## 1. Views -/

namespace View

/-- No more bytes are initialised than there are. -/
def Within (view : View) : Prop := (view.bytes.length : Int) ≤ view.remaining

/-- All bytes of memory from the address on. -/
def memory (view : View) : List UInt8 := zeroFilled view.remaining.toNat view.bytes

variable {view : View}

theorem memory_eq (h : view.Within) :
    view.memory = view.bytes ++ List.replicate (view.remaining.toNat - view.bytes.length) 0 := by
  unfold Within at h
  rw [memory, zeroFilled, List.take_of_length_le (by omega)]

theorem length_memory (h : view.Within) : (view.memory.length : Int) = view.remaining := by
  unfold Within at h
  rw [memory, length_zeroFilled]
  omega

-- A read is a first part of memory.
theorem read?_eq (h : view.Within) {n : Nat} (hn : (n : Int) ≤ view.remaining) :
    view.read? n = some (view.memory.take n) := by
  unfold Within at h
  rw [read?, if_neg (by omega), Int.toNat_natCast, memory, zeroFilled, zeroFilled,
    List.take_of_length_le (by omega : view.bytes.length ≤ view.remaining.toNat),
    List.take_append, List.take_replicate, List.length_take]
  congr 3
  omega

/-! ## 2. Strings of bytes -/

/-- The initialised bytes up to the first zero are the bytes of memory up to the first zero. -/
theorem string_eq (h : view.Within) : view.string = view.memory.takeWhile (· ≠ 0) := by
  rw [memory_eq h, List.takeWhile_append, string]
  split
  · rename_i hall
    rw [(List.takeWhile_prefix _).eq_of_length hall, List.takeWhile_replicate]
    simp
  · rfl

-- Behind the string there is a zero, unless memory ends there.
theorem exists_memory_eq_string (h : view.Within) :
    ∃ rest, view.memory = view.string ++ rest ∧ (rest = [] ∨ ∃ tail, rest = 0 :: tail) := by
  refine ⟨view.memory.dropWhile (· ≠ 0), ?_, ?_⟩
  · rw [string_eq h, List.takeWhile_append_dropWhile]
  · have hfirst := List.head?_dropWhile_not (· ≠ 0) view.memory
    cases hrest : view.memory.dropWhile (· ≠ 0) with
    | nil => exact .inl rfl
    | cons b tail =>
      rw [hrest] at hfirst
      exact .inr ⟨tail, by simpa using hfirst⟩

/-! ## 3. Strings of two-byte units -/

/-- No two-byte unit is zero. -/
def NoZeroUnit (bytes : List UInt8) : Prop :=
  ∀ i, ¬(bytes[2 * i]? = some 0 ∧ bytes[2 * i + 1]? = some 0)

theorem length_wideUnits (bytes : List UInt8) : (wideUnits bytes).length % 2 = 0 := by
  fun_induction wideUnits bytes with
  | case1 => rfl
  | case2 a b rest _ ih =>
    rw [List.length_cons, List.length_cons]
    omega
  | case3 => rfl

theorem noZeroUnit_wideUnits (bytes : List UInt8) : NoZeroUnit (wideUnits bytes) := by
  fun_induction wideUnits bytes with
  | case1 => simp [NoZeroUnit]
  | case2 a b rest hunit ih =>
    rintro (_ | i)
    · simpa using hunit
    · exact ih i
  | case3 => simp [NoZeroUnit]

/-- Behind the units that are not zero there is one that is, or less than a unit. -/
theorem exists_eq_wideUnits (bytes : List UInt8) :
    ∃ rest, bytes = wideUnits bytes ++ rest ∧
      (rest = [] ∨ (∃ b, rest = [b]) ∨ ∃ tail, rest = 0 :: 0 :: tail) := by
  fun_induction wideUnits bytes with
  | case1 a b rest hzero =>
    obtain ⟨rfl, rfl⟩ := hzero
    exact ⟨_, rfl, .inr (.inr ⟨rest, rfl⟩)⟩
  | case2 a b rest _ ih =>
    obtain ⟨behind, heq, hbehind⟩ := ih
    exact ⟨behind, by rw [List.cons_append, List.cons_append, ← heq], hbehind⟩
  | case3 bytes hshort =>
    refine ⟨bytes, rfl, ?_⟩
    match bytes with
    | [] => exact .inl rfl
    | [b] => exact .inr (.inl ⟨b, rfl⟩)
    | a :: b :: rest => exact absurd rfl (hshort a b rest)

/-- There is a unit of memory behind the string, and the initialised bytes end in the middle of it,
with a byte that is not zero. -/
def CutsUnit (view : View) : Prop :=
  (view.wideString.length : Int) + 2 ≤ view.remaining ∧
    ∃ b ≠ 0, view.bytes = view.wideString ++ [b]

/-- The unit of memory behind the string is zero, unless the initialised bytes end in it. -/
theorem exists_memory_eq_wideString (h : view.Within) :
    ∃ rest, view.memory = view.wideString ++ rest ∧
      (2 ≤ rest.length → rest.take 2 = [0, 0] ∨
        ∃ b, view.bytes = view.wideString ++ [b] ∧ rest.take 2 = [b, 0]) := by
  obtain ⟨rest, heq, hrest⟩ := exists_eq_wideUnits view.bytes
  change view.bytes = view.wideString ++ rest at heq
  refine ⟨rest ++ List.replicate (view.remaining.toNat - view.bytes.length) 0, ?_, ?_⟩
  · rw [← List.append_assoc, ← heq, memory_eq h]
  · generalize view.remaining.toNat - view.bytes.length = zeros
    intro hlen
    rw [List.length_append, List.length_replicate] at hlen
    obtain rfl | ⟨b, rfl⟩ | ⟨tail, rfl⟩ := hrest
    · left
      rw [List.nil_append, List.take_replicate, Nat.min_eq_left (by simpa using hlen)]
      rfl
    · right
      rw [List.length_singleton] at hlen
      refine ⟨b, heq, ?_⟩
      rw [List.singleton_append, List.take_succ_cons, List.take_replicate,
        Nat.min_eq_left (by omega)]
      rfl
    · exact .inl rfl

end View

/-! ## 4. Images -/

/-- The images that have memory: flat ones and decoded modules. -/
inductive Image.Loaded : Image → Prop
  | flat (path : String) (image : FlatImage) : Loaded (.flat path image)
  | decoded {file : Source} {offset : Int} {effort : Effort} {path : String}
      {dosHeader? : Option DosHeader} {m : ModuleImage}
      (hm : ModuleImage.decode file offset effort path dosHeader? = .ok m) : Loaded (.ofModule m)

namespace Image

variable {image : Image} {address : Int} {view : View}

/-- Looking up an address never gives more initialised bytes than memory has. -/
theorem Loaded.within (h : image.Loaded) (hseek : image.seek address = .ok view) :
    view.Within := by
  unfold View.Within
  cases h with
  | flat path image =>
    have hsize := image.size_ge
    change image.seek address = .ok view at hseek
    rw [FlatImage.seek] at hseek
    split at hseek
    · cases hseek
      rw [List.length_drop]
      dsimp only
      omega
    · contradiction
  | decoded hm =>
    obtain ⟨o, -, ⟨hbase, hend⟩, bytes, hbuild, rfl⟩ :=
      ModuleImage.of_seek_eq_ok (ModuleImage.consistent_of_decode hm) hseek
    have hsize := ModuleImage.length_buildObject_le hbuild
    rw [List.length_drop]
    dsimp only
    omega

-- A read of all that is left is a read of memory.
theorem read_remaining (h : view.Within) (hseek : image.seek address = .ok view) :
    image.read address view.remaining = .ok view.memory := by
  unfold View.Within at h
  rw [read_of_seek hseek, if_neg (by omega)]
  rfl

-- What memory starts with is read back, with what stands behind it.
theorem read_eq_append (h : view.Within) (hseek : image.seek address = .ok view)
    {bytes rest : List UInt8} (hmemory : view.memory = bytes ++ rest) {n : Nat}
    (hn : n ≤ rest.length) :
    image.read address (bytes.length + n) = .ok (bytes ++ rest.take n) := by
  have hlen := View.length_memory h
  rw [hmemory, List.length_append] at hlen
  have hread := View.read?_eq h (n := bytes.length + n) (by omega)
  rw [hmemory, List.take_length_add_append] at hread
  rw [read, hseek, Except.bind_ok, ← Nat.cast_add, hread]
  rfl

theorem read_eq_self (h : view.Within) (hseek : image.seek address = .ok view)
    {bytes rest : List UInt8} (hmemory : view.memory = bytes ++ rest) :
    image.read address bytes.length = .ok bytes := by
  have hread := read_eq_append h hseek hmemory (Nat.zero_le _)
  rwa [Nat.cast_zero, Int.add_zero, List.take_zero, List.append_nil] at hread

end Image

/-! ## 5. Strings at an address -/

/-- A module of one object of eight bytes, the first four of which are stored. -/
def Blueprint.stringSample : Blueprint where
  signature := .lx
  order := .little
  pageSize := 4
  pageShift := 0
  stub := []
  objects := [⟨0x10000, 8, 3, [⟨.legal, [0x41, 0, 0x42, 0x43], []⟩]⟩]
  importModules := []
  importProcedures := []
  residentNames := []

-- The memory of the sample from its first three addresses on.
theorem ModuleImage.decode_stringSample :
    ∃ m, decode (Blueprint.stringSample.source .little) 0 ⟨false, none⟩ "" none = .ok m ∧
      m.seek 0x10000 = .ok ⟨[0x41, 0, 0x42, 0x43], 8⟩ ∧
      m.seek 0x10001 = .ok ⟨[0, 0x42, 0x43], 7⟩ ∧ m.seek 0x10002 = .ok ⟨[0x42, 0x43], 6⟩ :=
  Except.exists_eq_ok (by decide +kernel)

namespace Image

variable {image : Image} {address : Int} {view : View}

/-- The string at an address of memory: a read returns it, with a zero behind it unless memory ends
there, so that it is all of memory up to the first zero. -/
theorem readString_memory (h : image.Loaded) (hseek : image.seek address = .ok view) :
    ∃ s, image.readString address = .ok s ∧ 0 ∉ s ∧ (s.length : Int) ≤ view.remaining ∧
      image.read address s.length = .ok s ∧
      ((s.length : Int) < view.remaining → image.read address (s.length + 1) = .ok (s ++ [0])) ∧
      ∃ memory, image.read address view.remaining = .ok memory ∧ s = memory.takeWhile (· ≠ 0) := by
  have hwithin := h.within hseek
  have hlen := View.length_memory hwithin
  obtain ⟨rest, hmemory, hrest⟩ := View.exists_memory_eq_string hwithin
  refine ⟨view.string, by rw [readString, hseek]; rfl, fun hzero => ?_, ?_,
    read_eq_self hwithin hseek hmemory, fun hlt => ?_, _, read_remaining hwithin hseek,
    View.string_eq hwithin⟩
  · simpa using List.mem_takeWhile_imp hzero
  · rw [hmemory, List.length_append] at hlen
    omega
  · obtain rfl | ⟨tail, rfl⟩ := hrest
    · rw [hmemory, List.append_nil] at hlen
      omega
    · have hone : 1 ≤ (0 :: tail : List UInt8).length := by simp
      exact read_eq_append hwithin hseek hmemory hone

/-- A string that runs to the end of the initialised bytes. -/
theorem readString_memory_sample :
    ∃ m, ModuleImage.decode (Blueprint.stringSample.source .little) 0 ⟨false, none⟩ "" none =
        .ok m ∧
      m.seek 0x10002 = .ok ⟨[0x42, 0x43], 6⟩ ∧
      (ofModule m).readString 0x10002 = .ok [0x42, 0x43] ∧
      (ofModule m).read 0x10002 3 = .ok [0x42, 0x43, 0] := by
  obtain ⟨m, hm, -, -, hseek⟩ := ModuleImage.decode_stringSample
  replace hseek : (ofModule m).seek 0x10002 = .ok ⟨[0x42, 0x43], 6⟩ := hseek
  have hstring : (ofModule m).readString 0x10002 = .ok [0x42, 0x43] := by
    rw [readString, hseek]
    rfl
  obtain ⟨s, hs, -, -, -, hnext, -⟩ := readString_memory (.decoded hm) hseek
  obtain rfl := Except.ok.inj (hs.symm.trans hstring)
  exact ⟨m, hm, hseek, hstring, hnext (by decide)⟩

theorem readWideString_of_seek (hseek : image.seek address = .ok view) :
    image.readWideString address = .ok view.wideString := by
  rw [readWideString, hseek, Except.bind_ok]
  exact if_pos (View.length_wideUnits view.bytes)

-- What a read shows of a string of two-byte units and of the unit behind it.
theorem read_wideString (h : view.Within) (hseek : image.seek address = .ok view) :
    (view.wideString.length : Int) ≤ view.remaining ∧
      image.read address view.wideString.length = .ok view.wideString ∧
      ((view.wideString.length : Int) + 2 ≤ view.remaining →
        ∃ unit, image.read address (view.wideString.length + 2) = .ok (view.wideString ++ unit) ∧
          (unit = [0, 0] ∨ ∃ b ≠ 0, unit = [b, 0] ∧ view.bytes = view.wideString ++ [b])) := by
  have hlen := View.length_memory h
  obtain ⟨rest, hmemory, hrest⟩ := View.exists_memory_eq_wideString h
  rw [hmemory, List.length_append] at hlen
  refine ⟨by omega, read_eq_self h hseek hmemory, fun hroom => ?_⟩
  have htwo : 2 ≤ rest.length := by omega
  refine ⟨_, read_eq_append h hseek hmemory htwo, ?_⟩
  obtain hzero | ⟨b, hbytes, hunit⟩ := hrest htwo
  · exact .inl hzero
  · by_cases hb : b = 0
    · exact .inl (hb ▸ hunit)
    · exact .inr ⟨b, hb, hunit, hbytes⟩

/-- The string of two-byte units at an address is the one that memory has there: it is returned and
made of units none of which is zero, a read returns it, and a read of one more unit shows a zero
one. -/
def WideStringInMemory (image : Image) (address : Int) : Prop :=
  ∃ view w, image.seek address = .ok view ∧ image.readWideString address = .ok w ∧
    w.length % 2 = 0 ∧ (w.length : Int) ≤ view.remaining ∧ image.read address w.length = .ok w ∧
    View.NoZeroUnit w ∧
    ((w.length : Int) + 2 ≤ view.remaining →
      image.read address (w.length + 2) = .ok (w ++ [0, 0]))

-- A unit that the end of the initialised bytes cuts is read, but not part of the string.
theorem not_wideStringInMemory_of_cuts (h : view.Within) (hseek : image.seek address = .ok view)
    (hcuts : view.CutsUnit) : ¬image.WideStringInMemory address := by
  rintro ⟨view', w, hseek', hstring, -, -, -, -, hnext⟩
  obtain rfl := Except.ok.inj (hseek.symm.trans hseek')
  obtain rfl := Except.ok.inj ((readWideString_of_seek hseek).symm.trans hstring)
  obtain ⟨hroom, b, hb, hbytes⟩ := hcuts
  have hmemory := View.memory_eq h
  generalize view.remaining.toNat - view.bytes.length = zeros at hmemory
  rw [hbytes, List.append_assoc, List.singleton_append] at hmemory
  have hlen := View.length_memory h
  rw [hmemory, List.length_append] at hlen
  have htwo : 2 ≤ (b :: List.replicate zeros 0).length := by omega
  have hread := (read_eq_append h hseek hmemory htwo).symm.trans (hnext hroom)
  have hunit := List.append_cancel_left (Except.ok.inj hread)
  rw [List.take_succ_cons] at hunit
  exact hb (List.cons.inj hunit).1

/-- The string of two-byte units at an address of memory: it is made of units none of which is zero,
and a read returns it. The unit behind it is zero, unless the initialised bytes end in the middle of
it; the string is the one that memory has there iff they do not. -/
theorem readWideString_memory (h : image.Loaded) (hseek : image.seek address = .ok view) :
    (∃ w, image.readWideString address = .ok w ∧ w.length % 2 = 0 ∧
      (w.length : Int) ≤ view.remaining ∧ image.read address w.length = .ok w ∧
      View.NoZeroUnit w ∧
      ((w.length : Int) + 2 ≤ view.remaining →
        ∃ unit, image.read address (w.length + 2) = .ok (w ++ unit) ∧
          (unit = [0, 0] ∨ ∃ b ≠ 0, unit = [b, 0] ∧ view.bytes = w ++ [b]))) ∧
    (image.WideStringInMemory address ↔ ¬view.CutsUnit) := by
  have hwithin := h.within hseek
  have hstring := readWideString_of_seek hseek
  have heven := View.length_wideUnits view.bytes
  have hunits := View.noZeroUnit_wideUnits view.bytes
  obtain ⟨hfits, hread, hnext⟩ := read_wideString hwithin hseek
  refine ⟨⟨_, hstring, heven, hfits, hread, hunits, hnext⟩,
    fun hmemory hcuts => not_wideStringInMemory_of_cuts hwithin hseek hcuts hmemory,
    fun hwhole => ⟨view, _, hseek, hstring, heven, hfits, hread, hunits, fun hroom => ?_⟩⟩
  obtain ⟨unit, hunit, rfl | ⟨b, hb, -, hbytes⟩⟩ := hnext hroom
  · exact hunit
  · exact absurd ⟨hroom, b, hb, hbytes⟩ hwhole

/-- A string of whole units. -/
theorem readWideString_memory_sample :
    ∃ m, ModuleImage.decode (Blueprint.stringSample.source .little) 0 ⟨false, none⟩ "" none =
        .ok m ∧
      m.seek 0x10000 = .ok ⟨[0x41, 0, 0x42, 0x43], 8⟩ ∧
      (ofModule m).readWideString 0x10000 = .ok [0x41, 0, 0x42, 0x43] ∧
      (ofModule m).WideStringInMemory 0x10000 := by
  obtain ⟨m, hm, hseek, -, -⟩ := ModuleImage.decode_stringSample
  replace hseek : (ofModule m).seek 0x10000 = .ok ⟨[0x41, 0, 0x42, 0x43], 8⟩ := hseek
  have hwhole : ¬View.CutsUnit ⟨[0x41, 0, 0x42, 0x43], 8⟩ := by
    rintro ⟨-, b, -, hbytes⟩
    simp [View.wideString, View.wideUnits] at hbytes
  exact ⟨m, hm, hseek, readWideString_of_seek hseek,
    (readWideString_memory (.decoded hm) hseek).2.mpr hwhole⟩

/-- Where the initialised bytes end in the middle of a unit, the string is cut off in front of it:
memory from the second address of the sample on is `00 42`, `43 00` and a zero unit, and the string
that is returned is `00 42`. -/
theorem not_wideStringInMemory_sample :
    ∃ m, ModuleImage.decode (Blueprint.stringSample.source .little) 0 ⟨false, none⟩ "" none =
        .ok m ∧
      (ofModule m).readWideString 0x10001 = .ok [0, 0x42] ∧
      (ofModule m).read 0x10001 7 = .ok [0, 0x42, 0x43, 0, 0, 0, 0] ∧
      ¬(ofModule m).WideStringInMemory 0x10001 := by
  obtain ⟨m, hm, -, hseek, -⟩ := ModuleImage.decode_stringSample
  replace hseek : (ofModule m).seek 0x10001 = .ok ⟨[0, 0x42, 0x43], 7⟩ := hseek
  have hwithin := Loaded.within (.decoded hm) hseek
  have hcuts : View.CutsUnit ⟨[0, 0x42, 0x43], 7⟩ := ⟨by decide, 0x43, by decide, rfl⟩
  exact ⟨m, hm, readWideString_of_seek hseek, read_remaining hwithin hseek,
    not_wideStringInMemory_of_cuts hwithin hseek hcuts⟩

end Image

end LinearExecutable
