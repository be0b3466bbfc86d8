import TuxOnIceFastboot.Snapshot.Bitmap

/-!
# The atomic copy (`toi_copy_pageset1`)

`toi_copy_pageset1` walks `pageset1_map` and `pageset1_copy_map` in step, copying the `i`-th
page of pageset 1 to the `i`-th page of the copy map, for `i < pagedir1.size`. The model is
the list of (source, destination) pairs it copies, `none` for `BM_END_OF_MAP`. When both maps
hold at least `pagedir1.size` pfns, the pairs are those of equal rank
(`toiCopyPageset1_eq_zip`).
-/

namespace TuxOnIceFastboot.Atomic

open TuxOnIceFastboot.Snapshot

/-- The pairs the loop of `toi_copy_pageset1` copies, `n` iterations from the given iterators. -/
def copyPairs : Nat → MemoryBitmap → MemoryBitmap → List (Option Nat × Option Nat)
  | 0, _, _ => []
  | n + 1, source, dest =>
    (source.nextPfn.1, dest.nextPfn.1) :: copyPairs n source.nextPfn.2 dest.nextPfn.2

/-- `toi_copy_pageset1()`, copying `size = pagedir1.size` pages. -/
def toiCopyPageset1 (pageset1Map pageset1CopyMap : MemoryBitmap) (size : Nat) :
    List (Option Nat × Option Nat) :=
  copyPairs size pageset1Map.positionReset pageset1CopyMap.positionReset

theorem copyPairs_eq_zip {n k : Nat} {source dest : MemoryBitmap} (hs : source.IterAt k)
    (hd : dest.IterAt k) (hns : k + n ≤ source.bits.length) (hnd : k + n ≤ dest.bits.length) :
    copyPairs n source dest =
      List.zip (((source.bits.drop k).take n).map some) (((dest.bits.drop k).take n).map some) := by
  induction n generalizing k source dest with
  | zero => simp [copyPairs]
  | succ n ih =>
    obtain ⟨hs₁, hs₂⟩ := MemoryBitmap.nextPfn_iterAt hs (by omega)
    obtain ⟨hd₁, hd₂⟩ := MemoryBitmap.nextPfn_iterAt hd (by omega)
    rw [copyPairs, hs₁, hd₁, ih hs₂ hd₂ (by simpa using by omega) (by simpa using by omega)]
    simp only [List.drop_eq_getElem_cons (show k < source.bits.length by omega),
      List.drop_eq_getElem_cons (show k < dest.bits.length by omega), List.take_succ_cons,
      List.map_cons, List.zip_cons_cons]

/-- With `pagedir1.size` pfns in each map, the `i`-th page of pageset 1 is copied to the `i`-th
page of the copy map. -/
theorem toiCopyPageset1_eq_zip {pageset1Map pageset1CopyMap : MemoryBitmap} {size : Nat}
    (hs : size ≤ pageset1Map.bits.length) (hd : size ≤ pageset1CopyMap.bits.length) :
    toiCopyPageset1 pageset1Map pageset1CopyMap size =
      List.zip ((pageset1Map.bits.take size).map some) ((pageset1CopyMap.bits.take size).map some) := by
  have h := copyPairs_eq_zip (n := size) pageset1Map.positionReset_iterAt
    pageset1CopyMap.positionReset_iterAt (by simpa using hs) (by simpa using hd)
  simpa [toiCopyPageset1] using h

end TuxOnIceFastboot.Atomic
