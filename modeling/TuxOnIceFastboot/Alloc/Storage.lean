import TuxOnIceFastboot.Base
import TuxOnIceFastboot.Lib.MachineInt

/-!
# Pages of storage and records of the image

Each page of the image is stored as a record: its pfn (`unsigned long`), its length (`int`) and
its `PAGE_SIZE` bytes. The swap and file allocators ask for `extra_pages` more pages than the
records' pages, the `DIV_ROUND_UP` of the records' overhead, and report the storage they hold
through `raw_to_real`, the number of records that `raw` pages of storage hold.

Both expressions meet `size_t` operands, so C evaluates them in `unsigned long`; the model
keeps the conversions. On operands that fit, `rawToReal` is
`max 0 (raw - (raw * overhead + recordSize + 1) / recordSize)` (`rawToReal_eq`), and it never
counts more records than fit in the pages (`rawToReal_mul_le`). It rounds down once more than
`extraPages` rounds up, so the pages an allocator asks for a request of `1024` records do not
hold `1024` records by its count (`rawToReal_x86_64_short`).
-/

namespace TuxOnIceFastboot.Alloc

open TuxOnIceFastboot.Lib

/-- The bytes a record takes besides its page: `sizeof(unsigned long) + sizeof(int)`. -/
def recordOverhead (a : Arch) : Nat := a.sizeofLong + a.sizeofInt

/-- The bytes of one record: `PAGE_SIZE + sizeof(unsigned long) + sizeof(int)`. -/
def recordSize (a : Arch) : Nat := a.pageSize + recordOverhead a

/-- `DIV_ROUND_UP(n, d)` on `w`-bit unsigned operands. -/
def divRoundUp (w n d : Nat) : Nat := toUnsigned w (n + d - 1) / d

/-- `raw_to_real`, identical in the swap and the file allocator. -/
def rawToReal (a : Arch) (raw : Int) : Int :=
  let w := a.longBits
  let q := toUnsigned w (toUnsigned w raw * recordOverhead a + (recordSize a + 1)) / recordSize a
  let result := toSigned w (toUnsigned w raw - q)
  if result < 0 then 0 else result

/-- `extra_pages` of `allocate_storage(request)`, assigned to an `int`. -/
def extraPages (a : Arch) (request : Int) : Int :=
  toInt32 (divRoundUp a.longBits (toUnsigned a.longBits (request * recordOverhead a)) a.pageSize)

section Arith

variable {a : Arch}

theorem recordSize_pos : 0 < recordSize a := by
  have := a.pageSize_pos
  unfold recordSize
  omega

/-- `raw_to_real` on operands that fit in a `long`. -/
theorem rawToReal_eq {raw : Int} (h0 : 0 ≤ raw) (hraw : raw * 2 < 2 ^ a.longBits)
    (hfit : (raw * recordOverhead a + recordSize a + 1) * 2 < 2 ^ a.longBits) :
    rawToReal a raw = max 0 (raw - (raw * recordOverhead a + recordSize a + 1) / recordSize a) := by
  have hd := (recordSize_pos (a := a))
  have hraw' : (toUnsigned a.longBits raw : Int) = raw := toUnsigned_of_lt h0 (by omega)
  have hnum : ((toUnsigned a.longBits (toUnsigned a.longBits raw * recordOverhead a +
      (recordSize a + 1)) : Nat) : Int) = raw * recordOverhead a + recordSize a + 1 := by
    rw [toUnsigned_of_lt (by positivity) (by rw [hraw']; omega), hraw']
    exact (Int.add_assoc _ _ _).symm
  -- the quotient is at most the numerator, so the difference fits in a `long`
  have hq : (raw * recordOverhead a + recordSize a + 1) / recordSize a ≤
      raw * recordOverhead a + recordSize a + 1 :=
    Int.ediv_le_self _ (by positivity)
  have hq0 : 0 ≤ (raw * recordOverhead a + recordSize a + 1) / recordSize a :=
    Int.ediv_nonneg (by positivity) (by positivity)
  have hsub : toSigned a.longBits (((toUnsigned a.longBits raw : Nat) : Int) -
      (((toUnsigned a.longBits (toUnsigned a.longBits raw * recordOverhead a +
        (recordSize a + 1)) / recordSize a : Nat)) : Int)) =
      raw - (raw * recordOverhead a + recordSize a + 1) / recordSize a := by
    rw [Int.natCast_ediv, hnum, hraw']
    exact toSigned_of_fits (by omega) (by omega)
  unfold rawToReal
  simp only [hsub]
  split_ifs with h <;> omega

/-- The records `raw_to_real` counts fit in the pages: never more than `n * PAGE_SIZE` bytes of
records in `n` pages. -/
theorem rawToReal_mul_le {n : Int} (h0 : 0 ≤ n) (hn : n * 2 < 2 ^ a.longBits)
    (hfit : (n * recordOverhead a + recordSize a + 1) * 2 < 2 ^ a.longBits) :
    rawToReal a n * recordSize a ≤ n * a.pageSize := by
  rw [rawToReal_eq h0 hn hfit]
  have hd : (0 : Int) < recordSize a := by exact_mod_cast (recordSize_pos (a := a))
  set q := (n * recordOverhead a + recordSize a + 1) / recordSize a with hq
  -- `q` rounds the overhead of `n` records up, with one to spare
  have hmod := Int.emod_add_ediv_mul (n * recordOverhead a + recordSize a + 1) (recordSize a)
  have hlt := Int.emod_lt_of_pos (n * recordOverhead a + recordSize a + 1) hd
  have hnn := Int.emod_nonneg (n * recordOverhead a + recordSize a + 1) (ne_of_gt hd)
  rw [← hq] at hmod
  have key : n * recordOverhead a < q * recordSize a := by linarith
  have hsize : (recordSize a : Int) = a.pageSize + recordOverhead a := by
    simp [recordSize]
  rcases le_total (n - q) 0 with hneg | hpos
  · rw [max_eq_left hneg, zero_mul]
    positivity
  · rw [max_eq_right hpos]
    rw [hsize] at key ⊢
    linarith

/-- On x86-64 the `1027` pages asked for `1024` records hold `1023` by `raw_to_real`. -/
theorem rawToReal_x86_64_short :
    extraPages Arch.x86_64 1024 = 3 ∧ rawToReal Arch.x86_64 (1024 + 3) = 1023 := by
  decide +kernel

end Arith

end TuxOnIceFastboot.Alloc
