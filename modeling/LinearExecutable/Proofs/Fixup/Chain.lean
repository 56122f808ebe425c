import LinearExecutable.Fixup.Chain
import LinearExecutable.Proofs.Bytes.Packing

/-!
# Chains as walks

A chain is a walk through the words of a page: the word at each place holds the next place. Following
a chain is this walk, cut off after as many links as a page has words. On a page that is no longer
than the page size the cut-off turns no chain away whose links lie side by side, since no more
windows of four bytes fit into the page than that.
-/

namespace LinearExecutable.Fixup

/-! ## 1. The walk -/

/-- The four bytes from an offset on lie in the page. -/
def Inside (data : List UInt8) (offset : Int) : Prop :=
  0 ≤ offset ∧ offset + 4 ≤ data.length

instance (data : List UInt8) (offset : Int) : Decidable (Inside data offset) :=
  inferInstanceAs (Decidable (_ ∧ _))

section Walk

variable (order : ByteOrder) (data : List UInt8)

/-- The word at an offset of a page. -/
def wordAt (offset : Int) : Nat :=
  order.word ((data.drop offset.toNat).take 4)

/-- The offset that the upper twelve bits of the word at an offset hold. -/
def nextPlace (offset : Int) : Nat :=
  wordAt order data offset >>> 20

/-- The chain ends at an offset: the word there holds the end mark or the offset itself. -/
def IsEnd (offset : Int) : Prop :=
  nextPlace order data offset = 0xFFF ∨ nextPlace order data offset = offset

instance (offset : Int) : Decidable (IsEnd order data offset) :=
  inferInstanceAs (Decidable (_ ∨ _))

/-- The chain has a link at an offset and goes on behind it. -/
def GoesOn (offset : Int) : Prop :=
  Inside data offset ∧ ¬IsEnd order data offset

instance (offset : Int) : Decidable (GoesOn order data offset) :=
  inferInstanceAs (Decidable (_ ∧ _))

/-- The offset of the link with a number, counted from zero, on the way from `start`. -/
def place (start : Int) : Nat → Int
  | 0 => start
  | i + 1 => nextPlace order data (place start i)

/-- The chain from `start` ends with the link number `k`, the first one that is an end, and all its
links lie in the page. -/
structure EndsAt (start : Int) (k : Nat) : Prop where
  before : ∀ i < k, GoesOn order data (place order data start i)
  inside : Inside data (place order data start k)
  isEnd : IsEnd order data (place order data start k)

/-- The chain from `start` leaves the page with the link number `k`. -/
structure LeavesAt (start : Int) (k : Nat) : Prop where
  before : ∀ i < k, GoesOn order data (place order data start i)
  outside : ¬Inside data (place order data start k)

/-- The link at an offset. The low twenty bits of its target come from the word there, the others
from the offset that the head has for its target. -/
def linkAt (target offset : Int) : ChainLink where
  source := offset
  target := Int.lor (Int.ldiff target 0xFFFFF) (Int.land (wordAt order data offset) 0xFFFFF)
  value := wordAt order data offset

/-- The first `n` links of the chain from `start`. -/
def linksTo (target start : Int) (n : Nat) : List ChainLink :=
  (List.range n).map fun i => linkAt order data target (place order data start i)

end Walk

section Chain

variable {order : ByteOrder} {data : List UInt8} {start : Int}

/-- A chain ends among its first `n` links, leaves the page with one of them, or goes on behind
them. -/
theorem walk_cases (order : ByteOrder) (data : List UInt8) (start : Int) (n : Nat) :
    (∃ k < n, EndsAt order data start k) ∨ (∃ k < n, LeavesAt order data start k) ∨
      ∀ i < n, GoesOn order data (place order data start i) := by
  induction n with
  | zero => exact .inr (.inr fun i hi => absurd hi (Nat.not_lt_zero i))
  | succ n ih =>
    rcases ih with ⟨k, hk, hends⟩ | ⟨k, hk, hleaves⟩ | hbefore
    · exact .inl ⟨k, by omega, hends⟩
    · exact .inr (.inl ⟨k, by omega, hleaves⟩)
    · by_cases hinside : Inside data (place order data start n)
      · by_cases hend : IsEnd order data (place order data start n)
        · exact .inl ⟨n, by omega, hbefore, hinside, hend⟩
        · exact .inr (.inr (Nat.forall_lt_succ_right.mpr ⟨hbefore, hinside, hend⟩))
      · exact .inr (.inl ⟨n, by omega, hbefore, hinside⟩)

theorem EndsAt.inside_of_le {k : Nat} (h : EndsAt order data start k) {i : Nat} (hi : i ≤ k) :
    Inside data (place order data start i) := by
  rcases Nat.lt_or_eq_of_le hi with hlt | rfl
  · exact (h.before i hlt).1
  · exact h.inside

-- The way from a place on the way is the rest of the way.
theorem place_add (start : Int) (i t : Nat) :
    place order data start (i + t) = place order data (place order data start i) t := by
  induction t with
  | zero => rfl
  | succ t ih => rw [← Nat.add_assoc, place, ih, place]

/-- A chain that ends visits no place twice: from a place that it comes back to it would go round
for ever. -/
theorem EndsAt.place_ne {k : Nat} (h : EndsAt order data start k) {i j : Nat} (hij : i < j)
    (hj : j ≤ k) : place order data start i ≠ place order data start j := by
  intro hsame
  -- from both places it is as far to the end, so the chain would have ended before
  have hend : place order data start (i + (k - j)) = place order data start k := by
    rw [place_add, hsame, ← place_add, Nat.add_sub_cancel' hj]
  exact (h.before (i + (k - j)) (by omega)).2 (hend ▸ h.isEnd)

theorem EndsAt.nodup_places {k : Nat} (h : EndsAt order data start k) (target : Int) :
    ((linksTo order data target start (k + 1)).map ChainLink.source).Nodup := by
  have hplaces : (linksTo order data target start (k + 1)).map ChainLink.source =
      (List.range (k + 1)).map (place order data start) := List.map_map
  rw [hplaces, List.nodup_map_iff_inj_on List.nodup_range]
  intro i hi j hj hsame
  rw [List.mem_range] at hi hj
  rcases Nat.lt_trichotomy i j with hlt | heq | hlt
  · exact absurd hsame (h.place_ne hlt (by omega))
  · exact heq
  · exact absurd hsame.symm (h.place_ne hlt (by omega))

/-! ## 2. Links -/

/-- A word of a page is made of four of its bytes. -/
theorem pageWord?_eq_some_iff {offset : Int} {value : Nat} :
    pageWord? order data offset = some value ↔
      0 ≤ offset ∧ offset + 4 ≤ data.length ∧
        order.word ((data.drop offset.toNat).take 4) = value := by
  have hlen : ((data.drop offset.toNat).take 4).length = 4 ↔ offset.toNat + 4 ≤ data.length := by
    rw [List.length_take, List.length_drop]
    omega
  unfold pageWord?
  split
  · simp
    omega
  · simp only [hlen]
    split
    · rw [Option.some.injEq]
      constructor
      · rintro rfl
        exact ⟨by omega, by omega, rfl⟩
      · rintro ⟨-, -, rfl⟩
        rfl
    · refine iff_of_false (fun h => by contradiction) ?_
      rintro ⟨hnonneg, hle, -⟩
      omega

-- Clearing the low bits of a number and putting those of another one there.
theorem replace_low_bits (width : Nat) (upper lower : Int) :
    Int.lor (Int.ldiff upper (2 ^ width - 1)) (Int.land lower (2 ^ width - 1)) =
      upper / 2 ^ width * 2 ^ width + lower % 2 ^ width := by
  -- one bit after the other, from the lowest on
  induction width generalizing upper lower with
  | zero =>
    have hright (n : Nat) : n.ldiff 0 = n :=
      Nat.eq_of_testBit_eq fun i => by simp [Nat.testBit_ldiff]
    have hleft (n : Nat) : Nat.ldiff 0 n = 0 :=
      Nat.eq_of_testBit_eq fun i => by simp [Nat.testBit_ldiff]
    cases upper <;> cases lower <;> simp [Int.lor, Int.ldiff, Int.land, hright, hleft]
  | succ width ih =>
    have hmask : (2 : Int) ^ (width + 1) - 1 = Int.bit true (2 ^ width - 1) := by
      rw [Int.bit_val, pow_succ]
      show _ = 2 * ((2 : Int) ^ width - 1) + 1
      ring
    have hdiv (b : Bool) (i : Int) : Int.bit b i / 2 ^ (width + 1) = i / 2 ^ width := by
      rw [Int.bit_val, pow_succ', ← Int.ediv_ediv_of_nonneg (by decide)]
      congr 1
      cases b <;> simp
      omega
    cases upper using Int.bitCasesOn with | _ a upper => ?_
    cases lower using Int.bitCasesOn with | _ b lower => ?_
    rw [hmask, Int.ldiff_bit, Int.land_bit, Int.lor_bit, ih, Int.emod_def, Int.emod_def, hdiv, hdiv,
      Int.bit_val, Int.bit_val b, Bool.not_true, Bool.and_false, Bool.and_true, Bool.false_or]
    ring

theorem linkAt_eq (target offset : Int) :
    linkAt order data target offset =
      ⟨offset, target / 0x100000 * 0x100000 + wordAt order data offset % 0x100000,
        wordAt order data offset⟩ := by
  have hbits := replace_low_bits 20 target (wordAt order data offset)
  rw [show (2 : Int) ^ 20 = 0x100000 by norm_num] at hbits
  rw [linkAt, ← hbits]
  rfl

theorem isLast_linkAt {target offset : Int} :
    (linkAt order data target offset).isLast = true ↔ IsEnd order data offset := by
  rw [ChainLink.isLast, ChainLink.next, IsEnd, nextPlace, Nat.shiftRight_eq_div_pow,
    Bool.or_eq_true, decide_eq_true_iff, decide_eq_true_iff]
  rfl

/-! ## 3. Following a chain -/

section Follow

variable {base target limit : Int} (hbase : base = target / 0x100000 * 0x100000)

include hbase

-- One step: a chain is followed to the next place, unless it ends or leaves the page.
theorem walkChain_succ_of_inside {offset : Int} (h : Inside data offset) (left : Nat)
    (links : List ChainLink) :
    walkChain order data base limit (left + 1) offset links =
      if IsEnd order data offset then .ok (linkAt order data target offset :: links).reverse
      else walkChain order data base limit left (nextPlace order data offset)
        (linkAt order data target offset :: links) := by
  have hlink : (⟨offset, base + wordAt order data offset % 0x100000, wordAt order data offset⟩ :
      ChainLink) = linkAt order data target offset := by
    rw [linkAt_eq, hbase]
  have hnext : (linkAt order data target offset).next = nextPlace order data offset := by
    rw [nextPlace, Nat.shiftRight_eq_div_pow]
    rfl
  have hword : pageWord? order data offset = some (wordAt order data offset) :=
    pageWord?_eq_some_iff.mpr ⟨h.1, h.2, rfl⟩
  rw [walkChain, hword]
  dsimp only
  rw [hlink, hnext]
  simp only [isLast_linkAt]

/-- Many steps: as long as the chain goes on, its links are collected, the last one first. -/
theorem walkChain_of_goesOn {n : Nat}
    (h : ∀ i < n, GoesOn order data (place order data start i)) (left : Nat) :
    walkChain order data base limit (n + left) start [] =
      walkChain order data base limit left (place order data start n)
        (linksTo order data target start n).reverse := by
  induction n generalizing left with
  | zero => rw [Nat.zero_add]; rfl
  | succ n ih =>
    obtain ⟨hbefore, hinside, hgoes⟩ := Nat.forall_lt_succ_right.mp h
    rw [Nat.add_right_comm, Nat.add_assoc, ih hbefore, walkChain_succ_of_inside hbase hinside,
      if_neg hgoes, linksTo, linksTo, List.range_succ, List.map_append, List.reverse_append]
    rfl

theorem walkChain_of_endsAt {k left : Nat} (h : EndsAt order data start k) (hk : k < left) :
    walkChain order data base limit left start [] =
      .ok (linksTo order data target start (k + 1)) := by
  obtain ⟨rest, rfl⟩ : ∃ rest, left = k + (rest + 1) := ⟨left - (k + 1), by omega⟩
  rw [walkChain_of_goesOn hbase h.before, walkChain_succ_of_inside hbase h.inside,
    if_pos h.isEnd, List.reverse_cons, List.reverse_reverse, linksTo, linksTo, List.range_succ,
    List.map_append]
  rfl

theorem walkChain_of_leavesAt {k left : Nat} (h : LeavesAt order data start k) (hk : k < left) :
    walkChain order data base limit left start [] =
      .error (.outside (place order data start k)) := by
  obtain ⟨rest, rfl⟩ : ∃ rest, left = k + (rest + 1) := ⟨left - (k + 1), by omega⟩
  have hnone : pageWord? order data (place order data start k) = none :=
    Option.eq_none_iff_forall_ne_some.mpr fun value hvalue => by
      obtain ⟨hnonneg, hle, -⟩ := pageWord?_eq_some_iff.mp hvalue
      exact h.outside ⟨hnonneg, hle⟩
  rw [walkChain_of_goesOn hbase h.before, walkChain, hnone]

theorem walkChain_of_forall_goesOn {left : Nat}
    (h : ∀ i < left, GoesOn order data (place order data start i)) :
    walkChain order data base limit left start [] = .error (.tooLong limit) :=
  walkChain_of_goesOn hbase h 0

end Follow

/-- How far a chain is followed: up to a number of links that there can be in a page. -/
theorem lt_maxLinks_iff {pageSize : Int} {k : Nat} :
    k < (maxLinks pageSize).toNat ↔ (k : Int) < max (pageSize / 4) 1 := by
  rw [maxLinks]
  omega

theorem chainBase_eq (head : Record) :
    chainBase head = head.target.offset?.getD 0 / 0x100000 * 0x100000 := rfl

variable {head : Record} {rest : List Int} (hchained : head.form.isChained = true)
  (hoffsets : head.offsets = start :: rest)

include hchained hoffsets

theorem resolveChain_eq (order : ByteOrder) (data : List UInt8) (pageSize page : Int) :
    resolveChain order head data pageSize page =
      (walkChain order data (chainBase head) (maxLinks pageSize) (maxLinks pageSize).toNat start
        []).mapError fun fault => .chainOverflow ⟨fault, page, start⟩ := by
  rw [resolveChain, hchained, hoffsets, Bool.not_true, if_neg Bool.false_ne_true]
  dsimp only
  cases walkChain order data (chainBase head) (maxLinks pageSize) (maxLinks pageSize).toNat start []
    <;> rfl

/-- A chain is followed to its end, or it overflows where it starts. -/
theorem resolveChain_cases (order : ByteOrder) (data : List UInt8) (pageSize page : Int) :
    (∃ links, resolveChain order head data pageSize page = .ok links) ∨
      ∃ fault, resolveChain order head data pageSize page =
        .error (.chainOverflow ⟨fault, page, start⟩) := by
  rw [resolveChain_eq hchained hoffsets]
  cases walkChain order data (chainBase head) (maxLinks pageSize) (maxLinks pageSize).toNat start []
    with
  | ok links => exact .inl ⟨links, rfl⟩
  | error fault => exact .inr ⟨fault, rfl⟩

theorem resolveChain_of_endsAt {k : Nat} (h : EndsAt order data start k) {pageSize : Int}
    (hk : (k : Int) < max (pageSize / 4) 1) (page : Int) :
    resolveChain order head data pageSize page =
      .ok (linksTo order data (head.target.offset?.getD 0) start (k + 1)) := by
  rw [resolveChain_eq hchained hoffsets, walkChain_of_endsAt (chainBase_eq head) h
    (lt_maxLinks_iff.mpr hk)]
  rfl

theorem resolveChain_of_leavesAt {k : Nat} (h : LeavesAt order data start k) {pageSize : Int}
    (hk : (k : Int) < max (pageSize / 4) 1) (page : Int) :
    resolveChain order head data pageSize page =
      .error (.chainOverflow ⟨.outside (place order data start k), page, start⟩) := by
  rw [resolveChain_eq hchained hoffsets, walkChain_of_leavesAt (chainBase_eq head) h
    (lt_maxLinks_iff.mpr hk)]
  rfl

theorem resolveChain_of_goesOn {pageSize : Int}
    (h : ∀ i : Nat, (i : Int) < max (pageSize / 4) 1 →
      GoesOn order data (place order data start i)) (page : Int) :
    resolveChain order head data pageSize page =
      .error (.chainOverflow ⟨.tooLong (max (pageSize / 4) 1), page, start⟩) := by
  rw [resolveChain_eq hchained hoffsets, walkChain_of_forall_goesOn (chainBase_eq head)
    fun i hi => h i (lt_maxLinks_iff.mp hi)]
  rfl

/-- A chain is followed iff it ends within the limit; its links are those up to there. -/
theorem resolveChain_eq_ok_iff {pageSize page : Int} {links : List ChainLink} :
    resolveChain order head data pageSize page = .ok links ↔
      ∃ k : Nat, (k : Int) < max (pageSize / 4) 1 ∧ EndsAt order data start k ∧
        links = linksTo order data (head.target.offset?.getD 0) start (k + 1) := by
  constructor
  · intro h
    have hcases := walk_cases order data start (maxLinks pageSize).toNat
    simp only [lt_maxLinks_iff] at hcases
    rcases hcases with ⟨k, hk, hends⟩ | ⟨k, hk, hleaves⟩ | hgoes
    · rw [resolveChain_of_endsAt hchained hoffsets hends hk, Except.ok.injEq] at h
      exact ⟨k, hk, hends, h.symm⟩
    · rw [resolveChain_of_leavesAt hchained hoffsets hleaves hk] at h
      contradiction
    · rw [resolveChain_of_goesOn hchained hoffsets hgoes] at h
      contradiction
  · rintro ⟨k, hk, hends, rfl⟩
    exact resolveChain_of_endsAt hchained hoffsets hends hk page

omit hchained hoffsets in
-- What is followed is the chain of a head, from its first place.
theorem head_of_resolveChain {pageSize page : Int} {links : List ChainLink}
    (h : resolveChain order head data pageSize page = .ok links) :
    head.form.isChained = true ∧ ∃ start rest, head.offsets = start :: rest := by
  unfold resolveChain at h
  split at h
  · contradiction
  · rename_i hchained
    split at h
    · contradiction
    · rename_i start rest hoffsets
      exact ⟨by simpa using hchained, start, rest, hoffsets⟩

/-- Following a chain is the bounded walk. It succeeds iff the chain ends within the limit without
having left the page, with exactly the links up to there, no two of them at one place. Otherwise it
overflows with its page and its start: where it leaves the page, or because it goes on behind as
many links as there may be. -/
theorem resolveChain_walk (order : ByteOrder) (data : List UInt8) (pageSize page : Int) :
    (∀ links, resolveChain order head data pageSize page = .ok links ↔
      ∃ k : Nat, (k : Int) < max (pageSize / 4) 1 ∧ EndsAt order data start k ∧
        links = linksTo order data (head.target.offset?.getD 0) start (k + 1)) ∧
    (∀ links, resolveChain order head data pageSize page = .ok links →
      (links.map ChainLink.source).Nodup) ∧
    ((∀ k : Nat, (k : Int) < max (pageSize / 4) 1 → ¬EndsAt order data start k) →
      ∃ fault, resolveChain order head data pageSize page =
          .error (.chainOverflow ⟨fault, page, start⟩) ∧
        ((∃ k : Nat, (k : Int) < max (pageSize / 4) 1 ∧ LeavesAt order data start k ∧
            fault = .outside (place order data start k)) ∨
          (∀ i : Nat, (i : Int) < max (pageSize / 4) 1 →
              GoesOn order data (place order data start i)) ∧
            fault = .tooLong (max (pageSize / 4) 1))) := by
  refine ⟨fun links => resolveChain_eq_ok_iff hchained hoffsets, fun links h => ?_,
    fun hnone => ?_⟩
  · obtain ⟨k, -, hends, rfl⟩ := (resolveChain_eq_ok_iff hchained hoffsets).mp h
    exact hends.nodup_places _
  · have hcases := walk_cases order data start (maxLinks pageSize).toNat
    simp only [lt_maxLinks_iff] at hcases
    rcases hcases with ⟨k, hk, hends⟩ | ⟨k, hk, hleaves⟩ | hgoes
    · exact absurd hends (hnone k hk)
    · exact ⟨_, resolveChain_of_leavesAt hchained hoffsets hleaves hk page,
        .inl ⟨k, hk, hleaves, rfl⟩⟩
    · exact ⟨_, resolveChain_of_goesOn hchained hoffsets hgoes page, .inr ⟨hgoes, rfl⟩⟩

omit hchained hoffsets

/-- The head of a chain from offset 8 of a page. -/
def headSample : Record :=
  ⟨⟨0x07, 0x18⟩, [8], .internal 1 (some 0x312345), none, 9⟩

/-- A page in which a chain goes from offset 8 to 1 and ends there. -/
def pageSample : List UInt8 :=
  [0, 7, 0, 0xf0, 0xff, 0, 0, 0, 5, 0, 0x10, 0, 0, 0, 0, 0]

/-- The chain of the sample is followed to its end if two links may be followed, and overflows if
only one may. -/
theorem resolveChain_walk_sample :
    resolveChain .little headSample pageSample 8 3 =
      .ok [⟨8, 0x300005, 0x00100005⟩, ⟨1, 0x300007, 0xfff00007⟩] ∧
    ∃ fault, resolveChain .little headSample pageSample 7 3 =
      .error (.chainOverflow ⟨fault, 3, 8⟩) := by
  have hchained : headSample.form.isChained = true := by decide
  have hoffsets : headSample.offsets = [8] := rfl
  obtain ⟨hends, -, -⟩ := resolveChain_walk hchained hoffsets .little pageSample 8 3
  obtain ⟨-, -, hoverflow⟩ := resolveChain_walk hchained hoffsets .little pageSample 7 3
  refine ⟨(hends _).mpr ⟨1, by decide, ⟨by decide, by decide, by decide⟩, ?_⟩, ?_⟩
  · simp only [linksTo, linkAt_eq]
    decide
  · obtain ⟨fault, hfault, -⟩ := hoverflow fun k hk h => by
      obtain rfl : k = 0 := by omega
      exact absurd h.isEnd (by decide)
    exact ⟨fault, hfault⟩

/-! ## 4. Chains that fill a page -/

/-- Two windows of four bytes do not overlap. -/
def Apart (offset offset' : Int) : Prop :=
  offset + 4 ≤ offset' ∨ offset' + 4 ≤ offset

instance (offset offset' : Int) : Decidable (Apart offset offset') :=
  inferInstanceAs (Decidable (_ ∨ _))

/-- As many windows that do not overlap as fit into a page: each takes four of its bytes. -/
theorem four_mul_le_of_apart {places : Nat → Int} {n : Nat}
    (hinside : ∀ i < n, Inside data (places i))
    (hapart : ∀ i j, i < j → j < n → Apart (places i) (places j)) : 4 * n ≤ data.length := by
  have hdisjoint : ∀ i ∈ Finset.range n, ∀ j ∈ Finset.range n, i ≠ j →
      Disjoint (Finset.Ico (places i) (places i + 4)) (Finset.Ico (places j) (places j + 4)) := by
    intro i hi j hj hne
    rw [Finset.mem_range] at hi hj
    have hsides : Apart (places i) (places j) := by
      rcases Nat.lt_or_gt_of_ne hne with hlt | hlt
      · exact hapart i j hlt hj
      · exact (hapart j i hlt hi).symm
    rw [Finset.disjoint_left]
    intro x hx hx'
    rw [Finset.mem_Ico] at hx hx'
    rcases hsides with hle | hle <;> omega
  have hpage : (Finset.range n).biUnion (fun i => Finset.Ico (places i) (places i + 4)) ⊆
      Finset.Ico 0 (data.length : Int) := by
    intro x hx
    rw [Finset.mem_biUnion] at hx
    obtain ⟨i, hi, hx⟩ := hx
    obtain ⟨hnonneg, hle⟩ := hinside i (Finset.mem_range.mp hi)
    rw [Finset.mem_Ico] at hx ⊢
    omega
  have hcard := Finset.card_le_card hpage
  rw [Finset.card_biUnion hdisjoint] at hcard
  simp only [Int.card_Ico, add_sub_cancel_left, Finset.sum_const, Finset.card_range] at hcard
  rw [smul_eq_mul, Nat.mul_comm] at hcard
  exact hcard

include hchained hoffsets in
/-- No chain is turned away whose links lie side by side in a page that is not longer than the page
size: if it ends, all its links are found. Put the other way round, a chain that overflows leaves the
page or has two links that overlap. -/
theorem resolveChain_of_apart (order : ByteOrder) {data : List UInt8} {pageSize : Int}
    (hfit : data.length ≤ pageSize) (page : Int) :
    (∀ k, EndsAt order data start k →
      (∀ i j, i < j → j ≤ k → Apart (place order data start i) (place order data start j)) →
      resolveChain order head data pageSize page =
        .ok (linksTo order data (head.target.offset?.getD 0) start (k + 1))) ∧
    ∀ overflow, resolveChain order head data pageSize page = .error (.chainOverflow overflow) →
      (∃ k, LeavesAt order data start k) ∨
      ∃ i j, i < j ∧ (∀ l < j, GoesOn order data (place order data start l)) ∧
        Inside data (place order data start j) ∧
        ¬Apart (place order data start i) (place order data start j) := by
  have hends : ∀ k, EndsAt order data start k →
      (∀ i j, i < j → j ≤ k → Apart (place order data start i) (place order data start j)) →
      resolveChain order head data pageSize page =
        .ok (linksTo order data (head.target.offset?.getD 0) start (k + 1)) := by
    intro k hk hapart
    have hroom := four_mul_le_of_apart (n := k + 1) (fun i hi => hk.inside_of_le (by omega))
      fun i j hij hj => hapart i j hij (by omega)
    exact resolveChain_of_endsAt hchained hoffsets hk (by omega) page
  refine ⟨hends, fun overflow hoverflow => ?_⟩
  by_contra hnot
  push Not at hnot
  obtain ⟨hstays, hsides⟩ := hnot
  -- one link more than there may be: the chain has ended by then, or its links do not fit
  rcases walk_cases order data start ((max (pageSize / 4) 1).toNat + 1) with
    ⟨k, -, hk⟩ | ⟨k, -, hk⟩ | hgoes
  · have hlinks := hends k hk fun i j hij hj =>
      hsides i j hij (fun l hl => hk.before l (by omega)) (hk.inside_of_le hj)
    rw [hlinks] at hoverflow
    contradiction
  · exact hstays k hk
  · have hroom := four_mul_le_of_apart (fun i hi => (hgoes i hi).1) fun i j hij hj =>
      hsides i j hij (fun l hl => hgoes l (by omega)) (hgoes j hj).1
    omega

/-- A page that a chain from offset 8 by way of 0 to 4 fills. -/
def fullPageSample : List UInt8 :=
  [6, 0, 0x40, 0, 7, 0, 0xf0, 0xff, 5, 0, 0, 0]

/-- As many links as a page has words are not too many. -/
theorem resolveChain_of_apart_sample :
    resolveChain .little headSample fullPageSample 12 3 =
      .ok [⟨8, 0x300005, 5⟩, ⟨0, 0x300006, 0x00400006⟩, ⟨4, 0x300007, 0xfff00007⟩] := by
  have hchained : headSample.form.isChained = true := by decide
  have hoffsets : headSample.offsets = [8] := rfl
  have hfit : (fullPageSample.length : Int) ≤ 12 := by decide
  obtain ⟨hends, -⟩ := resolveChain_of_apart hchained hoffsets .little hfit 3
  have hlinks := hends 2 ⟨by decide, by decide, by decide⟩ (by
    have hapart : ∀ j ≤ 2, ∀ i < j, Apart (place .little fullPageSample 8 i)
        (place .little fullPageSample 8 j) := by decide
    exact fun i j hij hj => hapart j hj i hij)
  simp only [linksTo, linkAt_eq] at hlinks
  exact hlinks

end Chain

end LinearExecutable.Fixup
