import Mathlib

/-!
# A page of bytes as an array of bits

`set_bit`, `clear_bit`, `test_bit` and `find_next_bit` treat memory as an array of bits. On a
little-endian machine bit `k` of the array is bit `k % 8` of byte `k / 8`, whatever the width of
the words the kernel uses; a page here is its list of bytes. Setting or clearing a bit changes
that bit only (`testBitAt_setBitAt`, `testBitAt_clearBitAt`), and `find_next_bit` returns the
first set bit from an offset on, or the size when there is none (`findNextBit_spec`).
-/

namespace TuxOnIceFastboot.Lib

/-- `test_bit(k, addr)`. -/
def testBitAt (bs : List UInt8) (k : Nat) : Bool := (bs.getD (k / 8) 0).toNat.testBit (k % 8)

/-- `set_bit(k, addr)`. -/
def setBitAt (bs : List UInt8) (k : Nat) : List UInt8 :=
  bs.set (k / 8) (bs.getD (k / 8) 0 ||| 1 <<< (k % 8).toUInt8)

/-- `clear_bit(k, addr)`. -/
def clearBitAt (bs : List UInt8) (k : Nat) : List UInt8 :=
  bs.set (k / 8) (bs.getD (k / 8) 0 &&& ~~~(1 <<< (k % 8).toUInt8))

/-- The scan of `find_next_bit` over the `n` bits from `k` on; `size` when none is set. -/
def scanBits (bs : List UInt8) (size : Nat) : Nat → Nat → Nat
  | _, 0 => size
  | k, n + 1 => if testBitAt bs k then k else scanBits bs size (k + 1) n

/-- `find_next_bit(addr, size, offset)`: the first set bit from `offset` on below `size`, or
`size`. -/
def findNextBit (bs : List UInt8) (size offset : Nat) : Nat :=
  scanBits bs size offset (size - offset)

/-! ### One byte -/

theorem toNat_one_shiftLeft {i : Nat} (hi : i < 8) :
    ((1 : UInt8) <<< i.toUInt8).toNat = 2 ^ i := by
  rw [UInt8.toNat_shiftLeft, UInt8.toNat_one, Nat.toUInt8, UInt8.toNat_ofNat',
    Nat.mod_eq_of_lt (by omega : i < 2 ^ 8), Nat.mod_eq_of_lt (by omega : i < 8), Nat.one_shiftLeft]
  exact Nat.mod_eq_of_lt (Nat.pow_lt_pow_right (by decide) (by omega))

theorem testBit_or_bit (b : UInt8) {i : Nat} (hi : i < 8) (j : Nat) :
    (b ||| 1 <<< i.toUInt8).toNat.testBit j = (b.toNat.testBit j || decide (j = i)) := by
  rw [UInt8.toNat_or, Nat.testBit_or, toNat_one_shiftLeft hi, Nat.testBit_two_pow]
  simp [eq_comm]

theorem testBit_and_not_bit (b : UInt8) {i : Nat} (hi : i < 8) {j : Nat} (hj : j < 8) :
    (b &&& ~~~(1 <<< i.toUInt8)).toNat.testBit j = (b.toNat.testBit j && !decide (j = i)) := by
  -- the mask, bit by bit, over the eight bits of a byte
  have hmask : ∀ i < 8, ∀ j < 8, (UInt8.size - 1 - 2 ^ i).testBit j = !decide (j = i) := by
    decide
  rw [UInt8.toNat_and, Nat.testBit_and, UInt8.toNat_not, toNat_one_shiftLeft hi, hmask i hi j hj]

/-! ### A page -/

section Page

variable {bs : List UInt8} {k : Nat}

@[simp] theorem length_setBitAt : (setBitAt bs k).length = bs.length := List.length_set

@[simp] theorem length_clearBitAt : (clearBitAt bs k).length = bs.length := List.length_set

theorem getD_set_byte {v : UInt8} (hk : k / 8 < bs.length) (j : Nat) :
    (bs.set (k / 8) v).getD (j / 8) 0 = if j / 8 = k / 8 then v else bs.getD (j / 8) 0 := by
  rw [List.getD_eq_getElem?_getD, List.getD_eq_getElem?_getD]
  split_ifs with h
  · rw [h, List.getElem?_set_self hk, Option.getD_some]
  · rw [List.getElem?_set_ne (Ne.symm h)]

theorem eq_iff_of_div_eq {j : Nat} (h : j / 8 = k / 8) : j % 8 = k % 8 ↔ j = k := by
  constructor
  · intro hmod
    rw [← Nat.div_add_mod j 8, ← Nat.div_add_mod k 8, h, hmod]
  · rintro rfl
    rfl

theorem testBitAt_setBitAt (hk : k / 8 < bs.length) (j : Nat) :
    testBitAt (setBitAt bs k) j = (testBitAt bs j || decide (j = k)) := by
  unfold testBitAt setBitAt
  rw [getD_set_byte hk]
  split_ifs with h
  · rw [testBit_or_bit _ (Nat.mod_lt _ (by decide)), h]
    congr 1
    exact decide_eq_decide.mpr (eq_iff_of_div_eq h)
  · have hne : j ≠ k := fun hjk => h (by rw [hjk])
    simp [hne]

theorem testBitAt_clearBitAt (hk : k / 8 < bs.length) (j : Nat) :
    testBitAt (clearBitAt bs k) j = (testBitAt bs j && !decide (j = k)) := by
  unfold testBitAt clearBitAt
  rw [getD_set_byte hk]
  split_ifs with h
  · rw [testBit_and_not_bit _ (Nat.mod_lt _ (by decide)) (Nat.mod_lt _ (by decide)), h]
    congr 2
    exact decide_eq_decide.mpr (eq_iff_of_div_eq h)
  · have hne : j ≠ k := fun hjk => h (by rw [hjk])
    simp [hne]

/-- A zeroed page has no bit set. -/
@[simp] theorem testBitAt_replicate_zero (n k : Nat) : testBitAt (List.replicate n 0) k = false := by
  unfold testBitAt
  rw [List.getD_eq_getElem?_getD, List.getElem?_replicate]
  split_ifs <;> simp

theorem scanBits_spec (size : Nat) :
    ∀ (n k : Nat),
      (k ≤ scanBits bs size k n ∧ scanBits bs size k n < k + n ∧
        testBitAt bs (scanBits bs size k n) = true ∧
        ∀ j, k ≤ j → j < scanBits bs size k n → testBitAt bs j = false) ∨
      (scanBits bs size k n = size ∧ ∀ j, k ≤ j → j < k + n → testBitAt bs j = false)
  | 0, k => .inr ⟨rfl, fun j hj hj' => absurd hj' (by omega)⟩
  | n + 1, k => by
    unfold scanBits
    split_ifs with hk
    · exact .inl ⟨Nat.le_refl k, by omega, hk, fun j hj hj' => absurd hj' (by omega)⟩
    · -- bit `k` is clear: the scan goes on from `k + 1`
      have hk' : testBitAt bs k = false := by simpa using hk
      rcases scanBits_spec size n (k + 1) with ⟨hlo, hhi, hset, hbefore⟩ | ⟨hend, hnone⟩
      · refine .inl ⟨by omega, by omega, hset, fun j hj hj' => ?_⟩
        rcases Nat.lt_or_ge j (k + 1) with hjk | hjk
        · rw [show j = k by omega]
          exact hk'
        · exact hbefore j hjk hj'
      · refine .inr ⟨hend, fun j hj hj' => ?_⟩
        rcases Nat.lt_or_ge j (k + 1) with hjk | hjk
        · rw [show j = k by omega]
          exact hk'
        · exact hnone j hjk (by omega)

/-- `find_next_bit` returns the first set bit from `offset` on below `size`, or `size` when none
is set. -/
theorem findNextBit_spec (size offset : Nat) :
    (offset ≤ findNextBit bs size offset ∧ findNextBit bs size offset < size ∧
      testBitAt bs (findNextBit bs size offset) = true ∧
      ∀ j, offset ≤ j → j < findNextBit bs size offset → testBitAt bs j = false) ∨
    (findNextBit bs size offset = size ∧
      ∀ j, offset ≤ j → j < size → testBitAt bs j = false) := by
  unfold findNextBit
  rcases @scanBits_spec bs size (size - offset) offset with
    ⟨hlo, hhi, hset, hbefore⟩ | ⟨hend, hnone⟩
  · exact .inl ⟨hlo, by omega, hset, hbefore⟩
  · exact .inr ⟨hend, fun j hj hj' => hnone j hj (by omega)⟩

end Page

end TuxOnIceFastboot.Lib
