import Mathlib

/-!
# Memory bitmaps (`snapshot.c`)

A `struct memory_bitmap` records a set of pfns and an iterator. `memory_bm_next_pfn` returns
the least set pfn at or after the iterator and moves the iterator past it; when there is none it
returns `BM_END_OF_MAP` (`none` here) and resets the iterator. The model keeps the set pfns as
an increasing list, so that the order in which the iterator visits them is the list's order,
and every pfn is one that `memory_bm_find_bit` finds.

`IterAt bm k` says that the iterator stands between the first `k` set pfns and the others; the
next call then returns the `k`-th pfn (`MemoryBitmap.nextPfn_iterAt`), and after a reset the calls
return the pfns in order. A walk that clears each pfn it is given keeps the iterator before all
set pfns (`IterAt bm 0`), and so returns the least set pfn each time (`MemoryBitmap.nextPfn_clear`).
-/

namespace TuxOnIceFastboot.Snapshot

/-- A set pfn inserted into an increasing list of pfns. -/
def insertPfn (p : Nat) : List Nat → List Nat
  | [] => [p]
  | q :: qs => if p < q then p :: q :: qs else if p = q then q :: qs else q :: insertPfn p qs

theorem mem_insertPfn {p x : Nat} {l : List Nat} : x ∈ insertPfn p l ↔ x = p ∨ x ∈ l := by
  induction l with
  | nil => simp [insertPfn]
  | cons q qs ih =>
    unfold insertPfn
    split_ifs with h₁ h₂
    · simp
    · subst h₂
      simp
    · simp only [List.mem_cons, ih]
      tauto

theorem insertPfn_sorted {p : Nat} {l : List Nat} (h : l.Pairwise (· < ·)) :
    (insertPfn p l).Pairwise (· < ·) := by
  induction l with
  | nil => simp [insertPfn]
  | cons q qs ih =>
    rw [List.pairwise_cons] at h
    unfold insertPfn
    split_ifs with h₁ h₂
    · refine List.pairwise_cons.mpr ⟨fun x hx => ?_, List.pairwise_cons.mpr h⟩
      rcases List.mem_cons.mp hx with rfl | hx
      · exact h₁
      · exact Nat.lt_trans h₁ (h.1 x hx)
    · exact List.pairwise_cons.mpr h
    · refine List.pairwise_cons.mpr ⟨fun x hx => ?_, ih h.2⟩
      rcases mem_insertPfn.mp hx with rfl | hx
      · omega
      · exact h.1 x hx

theorem insertPfn_of_lt {p : Nat} {l : List Nat} (h : ∀ q ∈ l, q < p) :
    insertPfn p l = l ++ [p] := by
  induction l with
  | nil => rfl
  | cons q qs ih =>
    have hq := h q List.mem_cons_self
    unfold insertPfn
    rw [if_neg (by omega), if_neg (by omega), ih fun x hx => h x (List.mem_cons_of_mem _ hx)]
    rfl

/-- `struct memory_bitmap`: the set pfns in increasing order, and the iterator, the pfn from
which `memory_bm_next_pfn` looks for a set bit. -/
structure MemoryBitmap where
  bits : List Nat
  sorted : bits.Pairwise (· < ·)
  iter : Nat

namespace MemoryBitmap

/-- A bitmap with no bit set. -/
def empty : MemoryBitmap := ⟨[], List.Pairwise.nil, 0⟩

/-- `memory_bm_position_reset`. -/
def positionReset (bm : MemoryBitmap) : MemoryBitmap := { bm with iter := 0 }

@[simp] theorem positionReset_bits (bm : MemoryBitmap) : bm.positionReset.bits = bm.bits := rfl

/-- `memory_bm_next_pfn`: `none` is `BM_END_OF_MAP`. -/
def nextPfn (bm : MemoryBitmap) : Option Nat × MemoryBitmap :=
  match bm.bits.find? fun p => decide (bm.iter ≤ p) with
  | some p => (some p, { bm with iter := p + 1 })
  | none => (none, bm.positionReset)

/-- `memory_bm_test_bit`. -/
def testBit (bm : MemoryBitmap) (pfn : Nat) : Bool := decide (pfn ∈ bm.bits)

/-- `memory_bm_set_bit`. -/
def setBit (bm : MemoryBitmap) (pfn : Nat) : MemoryBitmap :=
  { bm with bits := insertPfn pfn bm.bits, sorted := insertPfn_sorted bm.sorted }

/-- `memory_bm_clear_bit`. -/
def clearBit (bm : MemoryBitmap) (pfn : Nat) : MemoryBitmap :=
  { bm with bits := bm.bits.erase pfn, sorted := bm.sorted.erase pfn }

theorem nodup_bits (bm : MemoryBitmap) : bm.bits.Nodup := bm.sorted.imp Nat.ne_of_lt

@[simp] theorem mem_setBit {bm : MemoryBitmap} {pfn x : Nat} :
    x ∈ (bm.setBit pfn).bits ↔ x = pfn ∨ x ∈ bm.bits := mem_insertPfn

@[simp] theorem mem_clearBit {bm : MemoryBitmap} {pfn x : Nat} :
    x ∈ (bm.clearBit pfn).bits ↔ x ≠ pfn ∧ x ∈ bm.bits := bm.nodup_bits.mem_erase_iff

@[simp] theorem testBit_eq_true {bm : MemoryBitmap} {pfn : Nat} :
    bm.testBit pfn = true ↔ pfn ∈ bm.bits := by
  simp [testBit]

theorem testBit_eq_false {bm : MemoryBitmap} {pfn : Nat} :
    bm.testBit pfn = false ↔ pfn ∉ bm.bits := by
  simp [testBit]

theorem mem_foldl_setBit {x : Nat} :
    ∀ (pfns : List Nat) (bm : MemoryBitmap), x ∈ (pfns.foldl setBit bm).bits ↔ x ∈ pfns ∨ x ∈ bm.bits
  | [], bm => by simp
  | p :: ps, bm => by
    rw [List.foldl_cons, mem_foldl_setBit ps, mem_setBit, List.mem_cons]
    tauto

theorem iter_foldl_setBit :
    ∀ (pfns : List Nat) (bm : MemoryBitmap), (pfns.foldl setBit bm).iter = bm.iter
  | [], _ => rfl
  | p :: ps, bm => iter_foldl_setBit ps (bm.setBit p)

/-- The iterator stands after the first `k` set pfns and at or before the others. -/
def IterAt (bm : MemoryBitmap) (k : Nat) : Prop :=
  (∀ p ∈ bm.bits.take k, p < bm.iter) ∧ ∀ p ∈ bm.bits.drop k, bm.iter ≤ p

theorem positionReset_iterAt (bm : MemoryBitmap) : bm.positionReset.IterAt 0 :=
  ⟨by simp, fun p _ => Nat.zero_le p⟩

variable {bm : MemoryBitmap} {k : Nat}

/-- `memory_bm_next_pfn` moves only the iterator. -/
@[simp] theorem nextPfn_bits (bm : MemoryBitmap) : bm.nextPfn.2.bits = bm.bits := by
  unfold nextPfn
  split <;> rfl

theorem mem_of_nextPfn {p : Nat} (h : bm.nextPfn.1 = some p) : p ∈ bm.bits := by
  unfold nextPfn at h
  split at h
  · cases h
    exact List.mem_of_find?_eq_some (by assumption)
  · cases h

theorem lt_getElem_of_mem_take (hk : k < bm.bits.length) {q : Nat} (hq : q ∈ bm.bits.take k) :
    q < bm.bits[k] := by
  have h := bm.sorted
  rw [← List.take_append_drop k bm.bits, List.pairwise_append] at h
  exact h.2.2 q hq _ (by rw [List.drop_eq_getElem_cons hk]; exact List.mem_cons_self)

theorem getElem_lt_of_mem_drop (hk : k < bm.bits.length) {q : Nat}
    (hq : q ∈ bm.bits.drop (k + 1)) : bm.bits[k] < q := by
  have h := bm.sorted
  rw [← List.take_append_drop k bm.bits, List.drop_eq_getElem_cons hk, List.pairwise_append,
    List.pairwise_cons] at h
  exact h.2.1.1 q hq

/-- With the iterator after `k` set pfns, `memory_bm_next_pfn` returns the `k`-th. -/
theorem nextPfn_iterAt (h : bm.IterAt k) (hk : k < bm.bits.length) :
    bm.nextPfn = (some bm.bits[k], { bm with iter := bm.bits[k] + 1 }) ∧
      ({ bm with iter := bm.bits[k] + 1 } : MemoryBitmap).IterAt (k + 1) := by
  have hsplit : bm.bits = bm.bits.take k ++ bm.bits[k] :: bm.bits.drop (k + 1) := by
    rw [← List.drop_eq_getElem_cons hk, List.take_append_drop]
  have hfind : bm.bits.find? (fun p => decide (bm.iter ≤ p)) = some bm.bits[k] := by
    conv_lhs => rw [hsplit]
    rw [List.find?_append, List.find?_eq_none.mpr fun p hp => by
      simpa using h.1 p hp, Option.none_or, List.find?_cons_of_pos]
    exact decide_eq_true (h.2 _ (by rw [List.drop_eq_getElem_cons hk]; exact List.mem_cons_self))
  refine ⟨by simp [nextPfn, hfind], fun p hp => ?_, fun p hp => ?_⟩
  · -- the first `k + 1` pfns are the first `k` and the `k`-th itself
    rw [List.take_add_one, List.getElem?_eq_getElem hk] at hp
    rcases List.mem_append.mp hp with hp | hp
    · exact Nat.lt_succ_of_lt (lt_getElem_of_mem_take hk hp)
    · simp only [Option.toList_some, List.mem_singleton] at hp
      subst hp
      exact Nat.lt_succ_self _
  · exact getElem_lt_of_mem_drop hk hp

theorem isLeast_of_find? {p : Nat} (h : bm.bits.find? (fun q => decide (bm.iter ≤ q)) = some p) :
    IsLeast {q | q ∈ bm.bits ∧ bm.iter ≤ q} p := by
  obtain ⟨hp, pre, post, hbits, hpre⟩ := List.find?_eq_some_iff_append.mp h
  have hsorted := bm.sorted
  rw [hbits, List.pairwise_append, List.pairwise_cons] at hsorted
  refine ⟨⟨by rw [hbits]; simp, by simpa using hp⟩, ?_⟩
  rintro q ⟨hq, hiq⟩
  rw [hbits, List.mem_append, List.mem_cons] at hq
  rcases hq with hq | rfl | hq
  · -- the pfns before the one found are below the iterator
    have := hpre q hq
    simp only [Bool.not_eq_eq_eq_not, Bool.not_true, decide_eq_false_iff_not] at this
    omega
  · exact Nat.le_refl q
  · exact Nat.le_of_lt (hsorted.2.1.1 q hq)

theorem nextPfn_of_isLeast {p : Nat} (h : IsLeast {q | q ∈ bm.bits ∧ bm.iter ≤ q} p) :
    bm.nextPfn = (some p, { bm with iter := p + 1 }) := by
  cases hfind : bm.bits.find? (fun q => decide (bm.iter ≤ q)) with
  | none =>
    rw [List.find?_eq_none] at hfind
    exact absurd (decide_eq_true h.1.2) (hfind p h.1.1)
  | some p' =>
    rw [(isLeast_of_find? hfind).unique h] at hfind
    simp [nextPfn, hfind]

theorem nextPfn_of_forall_lt (h : ∀ q ∈ bm.bits, q < bm.iter) :
    bm.nextPfn = (none, bm.positionReset) := by
  have hfind : bm.bits.find? (fun q => decide (bm.iter ≤ q)) = none :=
    List.find?_eq_none.mpr fun q hq => by simpa using h q hq
  simp [nextPfn, hfind]

theorem nextPfn_end (h : bm.IterAt bm.bits.length) : bm.nextPfn = (none, bm.positionReset) :=
  nextPfn_of_forall_lt fun p hp => h.1 p (by rwa [List.take_length])

/-- A walk that clears each pfn it is given: the least set pfn comes next, and once it is
cleared the iterator is again before all set pfns. -/
theorem nextPfn_clear (h : bm.IterAt 0) {p : Nat} {rest : List Nat} (hb : bm.bits = p :: rest) :
    bm.nextPfn = (some p, { bm with iter := p + 1 }) ∧
      (({ bm with iter := p + 1 } : MemoryBitmap).clearBit p).bits = rest ∧
      (({ bm with iter := p + 1 } : MemoryBitmap).clearBit p).IterAt 0 := by
  have hk : 0 < bm.bits.length := by simp [hb]
  have hp : bm.bits[0] = p := by simp [hb]
  obtain ⟨hnext, -⟩ := nextPfn_iterAt h hk
  rw [hp] at hnext
  have hsorted := bm.sorted
  rw [hb, List.pairwise_cons] at hsorted
  have hclear : (({ bm with iter := p + 1 } : MemoryBitmap).clearBit p).bits = rest := by
    simp [clearBit, hb]
  refine ⟨hnext, hclear, by simp, fun q hq => ?_⟩
  rw [hclear, List.drop_zero] at hq
  exact hsorted.1 q hq

end MemoryBitmap

/-! ### Calls -/

/-- The calls that look a pfn up in a bitmap or walk it. -/
inductive BmCall
  | setBit (pfn : Nat)
  | clearBit (pfn : Nat)
  | testBit (pfn : Nat)
  | positionReset
  | nextPfn
  deriving DecidableEq, Repr

/-- The pfn a call looks up. -/
def BmCall.pfn? : BmCall → Option Nat
  | .setBit pfn | .clearBit pfn | .testBit pfn => some pfn
  | .positionReset | .nextPfn => none

/-- What a call returns: nothing, the bit of `memory_bm_test_bit`, or the pfn of
`memory_bm_next_pfn` (`none` for `BM_END_OF_MAP`). -/
inductive BmReturn
  | done
  | bit (b : Bool)
  | pfn (p : Option Nat)
  deriving DecidableEq, Repr

namespace MemoryBitmap

/-- A call on the set of pfns. -/
def call : BmCall → MemoryBitmap → BmReturn × MemoryBitmap
  | .setBit pfn, bm => (.done, bm.setBit pfn)
  | .clearBit pfn, bm => (.done, bm.clearBit pfn)
  | .testBit pfn, bm => (.bit (bm.testBit pfn), bm)
  | .positionReset, bm => (.done, bm.positionReset)
  | .nextPfn, bm => (.pfn bm.nextPfn.1, bm.nextPfn.2)

/-- Calls one after the other: what they return, and the bitmap after them. -/
def run : List BmCall → MemoryBitmap → List BmReturn × MemoryBitmap
  | [], bm => ([], bm)
  | c :: cs, bm => ((bm.call c).1 :: (run cs (bm.call c).2).1, (run cs (bm.call c).2).2)

theorem run_nextPfn_iterAt :
    ∀ (n : Nat) (bm : MemoryBitmap) (k : Nat), bm.IterAt k → bm.bits.length = k + n →
      run (List.replicate (n + 1) .nextPfn) bm =
        ((bm.bits.drop k).map (fun p => .pfn (some p)) ++ [.pfn none], bm.positionReset)
  | 0, bm, k, h, hk => by
    rw [Nat.add_zero] at hk
    subst hk
    simp [run, call, nextPfn_end h]
  | n + 1, bm, k, h, hk => by
    have hlt : k < bm.bits.length := by omega
    obtain ⟨hnext, h'⟩ := nextPfn_iterAt h hlt
    rw [List.replicate_succ, run, call, hnext]
    -- the next walk starts past the `k`-th pfn, with the same pfns set
    rw [run_nextPfn_iterAt n _ (k + 1) h' (by simp only; omega), List.drop_eq_getElem_cons hlt]
    rfl

theorem run_walk (bm : MemoryBitmap) :
    run (.positionReset :: List.replicate (bm.bits.length + 1) .nextPfn) bm =
      (.done :: (bm.bits.map fun p => .pfn (some p)) ++ [.pfn none], bm.positionReset) := by
  rw [run, call, run_nextPfn_iterAt bm.bits.length bm.positionReset 0
    (positionReset_iterAt bm) (by simp)]
  rfl

end MemoryBitmap

end TuxOnIceFastboot.Snapshot
