import TuxOnIceFastboot.Snapshot.Blocks
import TuxOnIceFastboot.Snapshot.Bitmap
import TuxOnIceFastboot.Lib.BitPage

/-!
# Memory bitmaps as lists of blocks (`snapshot.c`)

A `struct memory_bitmap` is the list of blocks `memory_bm_create` lays over the zones, and two
positions: `cur`, the block `memory_bm_find_bit` found last, where the next lookup starts, and
`iter`, where `memory_bm_next_pfn` goes on. A lookup scans backwards from `cur` while the pfn lies
below the block, then forwards while it lies past it; either scan can reach the list head, and the
code then reads the head as a block. What the head's memory holds where a `bm_block` has its fields
is `head` here: the results below hold whatever it is.

On well-formed blocks, `memory_bm_find_bit` finds the block of every pfn a block holds
(`memoryBmFindBit_holds`) and fails with `-EFAULT` for every other pfn
(`memoryBmFindBit_of_not_covers`). `memory_bm_next_pfn` returns the least set pfn at or past the
iterator, or ends and resets the positions (`memoryBmNextPfn_spec`). Neither reads the head on a
bitmap with blocks, except where a lookup is for a pfn no block holds.
-/

namespace TuxOnIceFastboot.Snapshot

open TuxOnIceFastboot.Lib

/-- `struct bm_position`: a block, by its place in the list, and a bit of it. The place after the
last block is the list head. -/
structure BmPosition where
  block : Nat
  bit : Nat
  deriving DecidableEq, Repr

/-- `struct memory_bitmap`: the blocks and the positions `cur` and `iter`. -/
structure BlockBitmap where
  blocks : List BmBlock
  cur : BmPosition
  iter : BmPosition
  deriving DecidableEq, Repr

/-- The pfns whose bits are set in a block, in increasing order. -/
def BmBlock.setPfns (bb : BmBlock) : List Nat :=
  (List.range' bb.startPfn (bmBlockBits bb)).filter fun p => testBitAt bb.data (p - bb.startPfn)

/-- The loop of `memory_bm_next_pfn` over the blocks from place `i` on, from bit `bit` of the
first: the pfn of the first set bit met, and the position just past it. -/
def scanBlocks (bit : Nat) : List BmBlock → Nat → Option (Nat × BmPosition)
  | [], _ => none
  | bb :: rest, i =>
    if findNextBit bb.data (bmBlockBits bb) bit < bmBlockBits bb then
      some (bb.startPfn + findNextBit bb.data (bmBlockBits bb) bit,
        ⟨i, findNextBit bb.data (bmBlockBits bb) bit + 1⟩)
    else scanBlocks 0 rest (i + 1)

namespace BlockBitmap

/-- `memory_bm_position_reset`: both positions at bit `0` of the first block, or of the list head
when there is no block. -/
def positionReset (bm : BlockBitmap) : BlockBitmap := { bm with cur := ⟨0, 0⟩, iter := ⟨0, 0⟩ }

/-- `memory_bm_create` on a zone layout; it ends with `memory_bm_position_reset`. -/
def create (a : Arch) (zones : List Zone) : BlockBitmap := ⟨memoryBmCreate a zones, ⟨0, 0⟩, ⟨0, 0⟩⟩

/-- Some block stands for `pfn`. -/
def Covers (bm : BlockBitmap) (pfn : Nat) : Prop := ∃ bb ∈ bm.blocks, bb.Holds pfn

/-- The pfns whose bits are set, block after block. -/
def setPfns (bm : BlockBitmap) : List Nat := bm.blocks.flatMap BmBlock.setPfns

section Code

variable (head : BmBlock)

/-- The block at a place of the list; at the list head, the head read as a block. -/
def blockAt (bm : BlockBitmap) (i : Nat) : BmBlock := bm.blocks.getD i head

/-- `list_for_each_entry_continue_reverse` in `memory_bm_find_bit`, from the block before place
`i`: the first block met that starts at or before `pfn`, or the list head. -/
def scanBackward (pfn : Nat) (bm : BlockBitmap) : Nat → Nat
  | 0 => bm.blocks.length
  | i + 1 => if (bm.blockAt head i).startPfn ≤ pfn then i else scanBackward pfn bm i

/-- `list_for_each_entry_continue` in `memory_bm_find_bit`, from the block after place `i` (the
first block, after the list head): the first block met that holds `pfn`, or the list head. -/
def scanForward (pfn : Nat) (blocks : List BmBlock) (i : Nat) : Nat :=
  (if i < blocks.length then i + 1 else 0) +
    (blocks.drop (if i < blocks.length then i + 1 else 0)).findIdx fun bb => decide (bb.Holds pfn)

/-- The backward scan of `memory_bm_find_bit`, taken when `pfn` lies below the block of `cur`. -/
def findBackward (pfn : Nat) (bm : BlockBitmap) : Nat :=
  if pfn < (bm.blockAt head bm.cur.block).startPfn then scanBackward head pfn bm bm.cur.block
  else bm.cur.block

/-- The forward scan of `memory_bm_find_bit`, taken when `pfn` lies at or past the end of the
block `bb` the backward scan stopped at. -/
def findForward (pfn : Nat) (bm : BlockBitmap) (bb : Nat) : Nat :=
  if (bm.blockAt head bb).endPfn ≤ pfn then scanForward pfn bm.blocks bb else bb

/-- `memory_bm_find_bit`: the bitmap with `cur` at the block found, the block's place and the bit
of `pfn` in it; `-EFAULT` when the scans end at the list head. -/
def memoryBmFindBit (pfn : Nat) (bm : BlockBitmap) : Except Int (BlockBitmap × Nat × Nat) :=
  let bb := findForward head pfn bm (findBackward head pfn bm)
  if bb = bm.blocks.length then .error (-EFAULT)
  else
    let bit := pfn - (bm.blockAt head bb).startPfn
    .ok ({ bm with cur := ⟨bb, bit + 1⟩ }, bb, bit)

/-- `memory_bm_set_bit` and `memory_bm_clear_bit`: `memory_bm_find_bit`, then `op` on the bit found
in the page of the block found; `none` is the `BUG_ON` of a failed lookup. -/
def memoryBmModifyBit (op : List UInt8 → Nat → List UInt8) (pfn : Nat) (bm : BlockBitmap) :
    Option BlockBitmap :=
  match memoryBmFindBit head pfn bm with
  | .ok (bm, i, bit) =>
    some { bm with blocks := bm.blocks.modify i fun bb => { bb with data := op bb.data bit } }
  | .error _ => none

/-- `memory_bm_set_bit`. -/
def memoryBmSetBit (pfn : Nat) (bm : BlockBitmap) : Option BlockBitmap :=
  memoryBmModifyBit head setBitAt pfn bm

/-- `memory_bm_clear_bit`. -/
def memoryBmClearBit (pfn : Nat) (bm : BlockBitmap) : Option BlockBitmap :=
  memoryBmModifyBit head clearBitAt pfn bm

/-- `memory_bm_test_bit`: the bit, and the bitmap with `cur` at the block found; `none` is the
`BUG_ON` of a failed lookup. -/
def memoryBmTestBit (pfn : Nat) (bm : BlockBitmap) : Option (Bool × BlockBitmap) :=
  match memoryBmFindBit head pfn bm with
  | .ok (bm, i, bit) => some (testBitAt (bm.blockAt head i).data bit, bm)
  | .error _ => none

/-- The `do … while` loop of `memory_bm_next_pfn`, from the block of `iter`. When that is the
list head, the first round reads the head as a block and the loop then walks the whole list. -/
def nextFound (bm : BlockBitmap) : Option (Nat × BmPosition) :=
  if bm.iter.block < bm.blocks.length then
    scanBlocks bm.iter.bit (bm.blocks.drop bm.iter.block) bm.iter.block
  else (scanBlocks bm.iter.bit [head] bm.iter.block).orElse fun _ => scanBlocks 0 bm.blocks 0

/-- `memory_bm_next_pfn`: the pfn of the next set bit and the bitmap with `iter` just past it, or
`none` (`BM_END_OF_MAP`) and the bitmap reset. -/
def memoryBmNextPfn (bm : BlockBitmap) : Option Nat × BlockBitmap :=
  match nextFound head bm with
  | some (pfn, pos) => (some pfn, { bm with iter := pos })
  | none => (none, bm.positionReset)

/-- The loop of `memory_bm_clear` from the pfn `memory_bm_next_pfn` returned, for `fuel` rounds at
most: `none` when they run out, or at a `BUG_ON`. -/
def clearLoop : Nat → Option Nat → BlockBitmap → Option BlockBitmap
  | _, none, bm => some bm
  | 0, some _, _ => none
  | fuel + 1, some pfn, bm =>
    (memoryBmClearBit head pfn bm).bind fun bm =>
      clearLoop fuel (memoryBmNextPfn head bm).1 (memoryBmNextPfn head bm).2

/-- `memory_bm_clear`. -/
def memoryBmClear (fuel : Nat) (bm : BlockBitmap) : Option BlockBitmap :=
  clearLoop head fuel (memoryBmNextPfn head bm.positionReset).1
    (memoryBmNextPfn head bm.positionReset).2

/-- The loop of `memory_bm_copy`: each pfn `memory_bm_next_pfn` returns from the source is set in
the destination. -/
def copyLoop : Nat → Option Nat → BlockBitmap → BlockBitmap → Option (BlockBitmap × BlockBitmap)
  | _, none, source, dest => some (source, dest)
  | 0, some _, _, _ => none
  | fuel + 1, some pfn, source, dest =>
    (memoryBmSetBit head pfn dest).bind fun dest =>
      copyLoop fuel (memoryBmNextPfn head source).1 (memoryBmNextPfn head source).2 dest

/-- `memory_bm_copy(source, dest)`: the source and the destination after it. -/
def memoryBmCopy (fuel : Nat) (source dest : BlockBitmap) :
    Option (BlockBitmap × BlockBitmap) :=
  copyLoop head fuel (memoryBmNextPfn head source.positionReset).1
    (memoryBmNextPfn head source.positionReset).2 dest

/-- `memory_bm_dup(source, dest)`: `memory_bm_clear(dest)`, then `memory_bm_copy`. -/
def memoryBmDup (fuel : Nat) (source dest : BlockBitmap) : Option (BlockBitmap × BlockBitmap) :=
  (memoryBmClear head fuel dest).bind fun dest => memoryBmCopy head fuel source dest

end Code

end BlockBitmap

/-! ### Well-formed blocks -/

namespace BlocksWf

variable {blocks : List BmBlock}

theorem sublist {l : List BmBlock} (hwf : BlocksWf blocks) (h : l.Sublist blocks) : BlocksWf l :=
  ⟨fun bb hbb => hwf.range bb (h.subset hbb), hwf.sorted.sublist h⟩

theorem end_le (hwf : BlocksWf blocks) {j k : Nat} (hj : j < blocks.length) (hk : k < blocks.length)
    (hjk : j < k) : blocks[j].endPfn ≤ blocks[k].startPfn :=
  List.pairwise_iff_getElem.mp hwf.sorted j k hj hk hjk

theorem start_le (hwf : BlocksWf blocks) {j k : Nat} (hj : j < blocks.length)
    (hk : k < blocks.length) (hjk : j ≤ k) : blocks[j].startPfn ≤ blocks[k].startPfn := by
  rcases Nat.lt_or_eq_of_le hjk with hlt | rfl
  · have h₁ := (hwf.range _ (List.getElem_mem hj)).1
    have h₂ := hwf.end_le hj hk hlt
    omega
  · exact Nat.le_refl _

theorem holds_unique (hwf : BlocksWf blocks) {j k pfn : Nat} (hj : j < blocks.length)
    (hk : k < blocks.length) (hjp : blocks[j].Holds pfn) (hkp : blocks[k].Holds pfn) : j = k := by
  obtain ⟨hj₁, hj₂⟩ := hjp
  obtain ⟨hk₁, hk₂⟩ := hkp
  rcases Nat.lt_trichotomy j k with hlt | heq | hgt
  · have := hwf.end_le hj hk hlt
    omega
  · exact heq
  · have := hwf.end_le hk hj hgt
    omega

theorem split (hwf : BlocksWf blocks) {k : Nat} (hk : k < blocks.length) :
    (∀ bb ∈ blocks.take k, bb.endPfn ≤ blocks[k].startPfn) ∧
      ∀ bb ∈ blocks.drop (k + 1), blocks[k].endPfn ≤ bb.startPfn := by
  have h := hwf.sorted
  rw [← List.take_append_drop k blocks, List.drop_eq_getElem_cons hk, List.pairwise_append,
    List.pairwise_cons] at h
  exact ⟨fun bb hbb => h.2.2 bb hbb _ List.mem_cons_self, h.2.1.1⟩

theorem modify_data (hwf : BlocksWf blocks) (k : Nat) {g : List UInt8 → List UInt8}
    (hg : ∀ d, (g d).length = d.length) :
    BlocksWf (blocks.modify k fun bb => { bb with data := g bb.data }) := by
  refine ⟨fun bb hbb => ?_, ?_⟩
  · obtain ⟨j, hj, rfl⟩ := List.mem_iff_getElem.mp hbb
    rw [List.length_modify] at hj
    have := hwf.range _ (List.getElem_mem hj)
    rw [List.getElem_modify]
    split_ifs
    · simpa [bmBlockBits, hg] using this
    · exact this
  · rw [List.pairwise_iff_getElem]
    intro i j hi hj hij
    rw [List.length_modify] at hi hj
    have := hwf.end_le hi hj hij
    simp only [List.getElem_modify]
    split_ifs <;> exact this

end BlocksWf

/-! ### The set pfns -/

theorem BmBlock.mem_setPfns {bb : BmBlock} {q : Nat} :
    q ∈ bb.setPfns ↔ bb.Holds q ∧ testBitAt bb.data (q - bb.startPfn) = true := by
  simp only [BmBlock.setPfns, List.mem_filter, List.mem_range'_1, bmBlockBits, BmBlock.Holds]
  constructor <;> rintro ⟨⟨h₁, h₂⟩, h₃⟩ <;> exact ⟨⟨h₁, by omega⟩, h₃⟩

theorem BmBlock.setPfns_sorted (bb : BmBlock) : bb.setPfns.Pairwise (· < ·) :=
  (List.pairwise_lt_range' 1).filter _

namespace BlockBitmap

section SetPfns

variable {bm : BlockBitmap}

theorem mem_setPfns {q : Nat} :
    q ∈ bm.setPfns ↔ ∃ bb ∈ bm.blocks, bb.Holds q ∧ testBitAt bb.data (q - bb.startPfn) = true := by
  simp only [setPfns, List.mem_flatMap, BmBlock.mem_setPfns]

theorem covers_of_mem_setPfns {q : Nat} (h : q ∈ bm.setPfns) : bm.Covers q := by
  obtain ⟨bb, hbb, hh, -⟩ := mem_setPfns.mp h
  exact ⟨bb, hbb, hh⟩

theorem setPfns_sorted (hwf : BlocksWf bm.blocks) : bm.setPfns.Pairwise (· < ·) := by
  rw [setPfns, List.pairwise_flatMap]
  refine ⟨fun bb _ => bb.setPfns_sorted, hwf.sorted.imp fun {bb bb'} hle x hx y hy => ?_⟩
  have hx' := (BmBlock.mem_setPfns.mp hx).1.2
  have hy' := (BmBlock.mem_setPfns.mp hy).1.1
  omega

theorem setPfns_split {k : Nat} (hk : k < bm.blocks.length) :
    bm.setPfns = (bm.blocks.take k).flatMap BmBlock.setPfns ++
      (bm.blocks[k].setPfns ++ (bm.blocks.drop (k + 1)).flatMap BmBlock.setPfns) := by
  conv_lhs => rw [setPfns, ← List.take_append_drop k bm.blocks, List.drop_eq_getElem_cons hk]
  rw [List.flatMap_append, List.flatMap_cons]

theorem setPfns_around (hwf : BlocksWf bm.blocks) {k : Nat} (hk : k < bm.blocks.length) {q : Nat} :
    (q ∈ (bm.blocks.take k).flatMap BmBlock.setPfns → q < bm.blocks[k].startPfn) ∧
      (q ∈ (bm.blocks.drop (k + 1)).flatMap BmBlock.setPfns → bm.blocks[k].endPfn ≤ q) := by
  obtain ⟨hpre, hpost⟩ := hwf.split hk
  refine ⟨fun hq => ?_, fun hq => ?_⟩
  · obtain ⟨bb, hbb, hq⟩ := List.mem_flatMap.mp hq
    have := (BmBlock.mem_setPfns.mp hq).1.2
    have := hpre bb hbb
    omega
  · obtain ⟨bb, hbb, hq⟩ := List.mem_flatMap.mp hq
    have := (BmBlock.mem_setPfns.mp hq).1.1
    have := hpost bb hbb
    omega

theorem mem_setPfns_iff_testBit (hwf : BlocksWf bm.blocks) {k pfn : Nat}
    (hk : k < bm.blocks.length) (hh : bm.blocks[k].Holds pfn) :
    pfn ∈ bm.setPfns ↔ testBitAt bm.blocks[k].data (pfn - bm.blocks[k].startPfn) = true := by
  have hpre := fun h => Nat.lt_irrefl _ (Nat.lt_of_lt_of_le ((setPfns_around hwf hk).1 h) hh.1)
  have hpost := fun h => Nat.lt_irrefl _ (Nat.lt_of_lt_of_le hh.2 ((setPfns_around hwf hk).2 h))
  rw [setPfns_split hk, List.mem_append, List.mem_append, BmBlock.mem_setPfns]
  constructor
  · rintro (h | ⟨-, h⟩ | h)
    · exact absurd h hpre
    · exact h
    · exact absurd h hpost
  · exact fun h => Or.inr (Or.inl ⟨hh, h⟩)

end SetPfns

/-! ### `memory_bm_find_bit` -/

section FindBit

variable (head : BmBlock) {bm : BlockBitmap} {pfn : Nat}

@[simp] theorem blockAt_of_lt {i : Nat} (h : i < bm.blocks.length) : bm.blockAt head i = bm.blocks[i] := by
  simp [blockAt, List.getD_eq_getElem?_getD, h]

@[simp] theorem blockAt_length : bm.blockAt head bm.blocks.length = head := by
  simp [blockAt, List.getD_eq_getElem?_getD]

theorem scanBackward_spec (bm : BlockBitmap) (pfn : Nat) :
    ∀ c, c ≤ bm.blocks.length →
      (∃ j < c, scanBackward head pfn bm c = j ∧ (bm.blockAt head j).startPfn ≤ pfn ∧
        ∀ k, j < k → k < c → pfn < (bm.blockAt head k).startPfn) ∨
      (scanBackward head pfn bm c = bm.blocks.length ∧
        ∀ k < c, pfn < (bm.blockAt head k).startPfn)
  | 0, _ => .inr ⟨rfl, fun k hk => absurd hk (Nat.not_lt_zero k)⟩
  | c + 1, hc => by
    unfold scanBackward
    split_ifs with hs
    · exact .inl ⟨c, Nat.lt_succ_self c, rfl, hs, fun k hk hk' => absurd hk' (by omega)⟩
    · -- the block before `c + 1` starts past `pfn`: the scan goes on from it
      have hs' : pfn < (bm.blockAt head c).startPfn := Nat.lt_of_not_le hs
      rcases scanBackward_spec bm pfn c (by omega) with ⟨j, hj, heq, hle, hgt⟩ | ⟨heq, hgt⟩
      · refine .inl ⟨j, by omega, heq, hle, fun k hk hk' => ?_⟩
        rcases Nat.lt_or_ge k c with hkc | hkc
        · exact hgt k hk hkc
        · rw [show k = c by omega]
          exact hs'
      · refine .inr ⟨heq, fun k hk => ?_⟩
        rcases Nat.lt_or_ge k c with hkc | hkc
        · exact hgt k hkc
        · rw [show k = c by omega]
          exact hs'

theorem scanForward_start_le (blocks : List BmBlock) (i : Nat) :
    (if i < blocks.length then i + 1 else 0) ≤ blocks.length := by
  split_ifs <;> omega

theorem scanForward_of_holds {blocks : List BmBlock} (hwf : BlocksWf blocks) {i k : Nat}
    (hk : k < blocks.length) (hh : blocks[k].Holds pfn)
    (hik : (if i < blocks.length then i + 1 else 0) ≤ k) : scanForward pfn blocks i = k := by
  unfold scanForward
  generalize hj : (if i < blocks.length then i + 1 else 0) = j at hik ⊢
  have hlen : k - j < (blocks.drop j).length := by rw [List.length_drop]; omega
  have hfind : (blocks.drop j).findIdx (fun bb => decide (bb.Holds pfn)) = k - j := by
    rw [List.findIdx_eq hlen]
    refine ⟨?_, fun m hm => ?_⟩
    · simp only [List.getElem_drop, Nat.add_sub_cancel' hik, hh, decide_true]
    · -- a block before the `k`-th holding `pfn` would be the `k`-th
      rw [List.getElem_drop, decide_eq_false_iff_not]
      intro hm'
      have := hwf.holds_unique (by omega) hk hm' hh
      omega
  rw [hfind]
  omega

theorem scanForward_of_not_holds {blocks : List BmBlock} (hno : ∀ bb ∈ blocks, ¬ bb.Holds pfn)
    (i : Nat) : scanForward pfn blocks i = blocks.length := by
  have hle := scanForward_start_le blocks i
  unfold scanForward
  rw [List.findIdx_eq_length.mpr fun bb hbb => decide_eq_false (hno bb (List.mem_of_mem_drop hbb)),
    List.length_drop]
  omega

theorem findBackward_spec (hcur : bm.cur.block < bm.blocks.length) :
    (findBackward head pfn bm < bm.blocks.length ∧
      (bm.blockAt head (findBackward head pfn bm)).startPfn ≤ pfn) ∨
      findBackward head pfn bm = bm.blocks.length := by
  unfold findBackward
  split_ifs with hlt
  · rcases scanBackward_spec head bm pfn _ hcur.le with ⟨j, hj, heq, hle, -⟩ | ⟨heq, -⟩
    · rw [heq]
      exact .inl ⟨by omega, hle⟩
    · exact .inr heq
  · exact .inl ⟨hcur, by omega⟩

theorem findBackward_holds (hwf : BlocksWf bm.blocks) (hcur : bm.cur.block < bm.blocks.length)
    {k : Nat} (hk : k < bm.blocks.length) (hh : bm.blocks[k].Holds pfn) :
    findBackward head pfn bm = k ∨
      (findBackward head pfn bm < k ∧ (bm.blockAt head (findBackward head pfn bm)).endPfn ≤ pfn) := by
  obtain ⟨hks, hke⟩ := hh
  unfold findBackward
  rw [blockAt_of_lt head hcur]
  split_ifs with hlt
  · -- `pfn` lies below the block of `cur`, so `k` comes before it
    have hkc : k < bm.cur.block := by
      by_contra hge
      have := hwf.start_le hcur hk (Nat.le_of_not_lt hge)
      omega
    rcases scanBackward_spec head bm pfn bm.cur.block hcur.le with ⟨j, hj, heq, hle, hgt⟩ |
      ⟨heq, hgt⟩
    · -- the scan stops at the last block that starts at or before `pfn`, which is `k`
      left
      rw [heq]
      have hkj : k ≤ j := by
        by_contra hjk
        have := hgt k (by omega) hkc
        rw [blockAt_of_lt head hk] at this
        omega
      have hjk : j ≤ k := by
        by_contra hkj'
        have := hwf.end_le hk (by omega : j < bm.blocks.length) (by omega)
        rw [blockAt_of_lt head (by omega : j < bm.blocks.length)] at hle
        omega
      omega
    · exfalso
      have := hgt k hkc
      rw [blockAt_of_lt head hk] at this
      omega
  · -- `pfn` lies at or past the start of the block of `cur`
    by_cases hck : bm.cur.block = k
    · exact .inl hck
    · right
      have hck' : bm.cur.block < k := by
        by_contra hge
        have := hwf.end_le hk hcur (by omega)
        omega
      refine ⟨hck', ?_⟩
      rw [blockAt_of_lt head hcur]
      by_contra hend
      exact hck (hwf.holds_unique hcur hk ⟨by omega, by omega⟩ ⟨hks, hke⟩)

theorem findForward_holds (hwf : BlocksWf bm.blocks) {k : Nat} (hk : k < bm.blocks.length)
    (hh : bm.blocks[k].Holds pfn) {b : Nat}
    (hb : b = k ∨ (b < k ∧ (bm.blockAt head b).endPfn ≤ pfn)) : findForward head pfn bm b = k := by
  unfold findForward
  rcases hb with rfl | ⟨hbk, hend⟩
  · rw [if_neg (by rw [blockAt_of_lt head hk]; exact Nat.not_le_of_lt hh.2)]
  · rw [if_pos hend]
    exact scanForward_of_holds hwf hk hh (by rw [if_pos (by omega)]; omega)

/-- `memory_bm_find_bit` finds the block that holds `pfn`, whatever the list head holds. -/
theorem memoryBmFindBit_holds (hwf : BlocksWf bm.blocks) (hcur : bm.cur.block < bm.blocks.length)
    {k : Nat} (hk : k < bm.blocks.length) (hh : bm.blocks[k].Holds pfn) :
    memoryBmFindBit head pfn bm =
      .ok ({ bm with cur := ⟨k, pfn - bm.blocks[k].startPfn + 1⟩ }, k,
        pfn - bm.blocks[k].startPfn) := by
  have hfound := findForward_holds head hwf hk hh (findBackward_holds head hwf hcur hk hh)
  simp only [memoryBmFindBit, hfound, Nat.ne_of_lt hk, if_false, blockAt_of_lt head hk]

/-- `memory_bm_find_bit` fails with `-EFAULT` for a pfn no block holds, whatever the list head
holds. -/
theorem memoryBmFindBit_of_not_covers (hcur : bm.cur.block < bm.blocks.length)
    (hno : ¬ bm.Covers pfn) : memoryBmFindBit head pfn bm = .error (-EFAULT) := by
  have hno' : ∀ bb ∈ bm.blocks, ¬ bb.Holds pfn := fun bb hbb hh => hno ⟨bb, hbb, hh⟩
  have hfound : findForward head pfn bm (findBackward head pfn bm) = bm.blocks.length := by
    unfold findForward
    rcases findBackward_spec head hcur with ⟨hb, hstart⟩ | hb
    · -- the block the backward scan stopped at ends at or before `pfn`, or it would hold it
      have hend : (bm.blockAt head (findBackward head pfn bm)).endPfn ≤ pfn := by
        rw [blockAt_of_lt head hb] at hstart ⊢
        by_contra hlt
        exact hno' _ (List.getElem_mem hb) ⟨hstart, by omega⟩
      rw [if_pos hend]
      exact scanForward_of_not_holds hno' _
    · rw [hb]
      split_ifs
      · exact scanForward_of_not_holds hno' _
      · rfl
  simp only [memoryBmFindBit, hfound, if_true]

end FindBit

/-! ### Setting, clearing and testing a bit -/

section Bits

variable (head : BmBlock) {bm : BlockBitmap} {pfn : Nat}

theorem memoryBmModifyBit_holds (op : List UInt8 → Nat → List UInt8) (hwf : BlocksWf bm.blocks)
    (hcur : bm.cur.block < bm.blocks.length) {k : Nat} (hk : k < bm.blocks.length)
    (hh : bm.blocks[k].Holds pfn) :
    memoryBmModifyBit head op pfn bm =
      some ⟨bm.blocks.modify k fun bb => { bb with data := op bb.data (pfn - bm.blocks[k].startPfn) },
        ⟨k, pfn - bm.blocks[k].startPfn + 1⟩, bm.iter⟩ := by
  rw [memoryBmModifyBit, memoryBmFindBit_holds head hwf hcur hk hh]

theorem memoryBmTestBit_holds (hwf : BlocksWf bm.blocks) (hcur : bm.cur.block < bm.blocks.length)
    {k : Nat} (hk : k < bm.blocks.length) (hh : bm.blocks[k].Holds pfn) :
    memoryBmTestBit head pfn bm =
      some (decide (pfn ∈ bm.setPfns), { bm with cur := ⟨k, pfn - bm.blocks[k].startPfn + 1⟩ }) := by
  rw [memoryBmTestBit, memoryBmFindBit_holds head hwf hcur hk hh]
  simp only [blockAt, List.getD_eq_getElem?_getD, List.getElem?_eq_getElem hk, Option.getD_some,
    Option.some.injEq, Prod.mk.injEq, and_true]
  rw [Bool.eq_iff_iff, decide_eq_true_iff, mem_setPfns_iff_testBit hwf hk hh]

theorem mem_setPfns_modify (g : List UInt8 → List UInt8) {k : Nat} (hk : k < bm.blocks.length)
    {P : Nat → Prop} (hg : ∀ q, q ∈ ({ bm.blocks[k] with data := g bm.blocks[k].data } : BmBlock).setPfns ↔ P q)
    {q : Nat} :
    q ∈ (bm.blocks.modify k fun bb => { bb with data := g bb.data }).flatMap BmBlock.setPfns ↔
      q ∈ (bm.blocks.take k).flatMap BmBlock.setPfns ∨ P q ∨
        q ∈ (bm.blocks.drop (k + 1)).flatMap BmBlock.setPfns := by
  rw [List.modify_eq_take_cons_drop hk, List.flatMap_append, List.flatMap_cons, List.mem_append,
    List.mem_append, hg]

theorem mem_setPfns_setBit {bb : BmBlock} (hbits : bmBlockBits bb ≤ 8 * bb.data.length)
    (hh : bb.Holds pfn) (q : Nat) :
    q ∈ ({ bb with data := setBitAt bb.data (pfn - bb.startPfn) } : BmBlock).setPfns ↔
      q = pfn ∨ q ∈ bb.setPfns := by
  obtain ⟨hs, he⟩ := hh
  have hbyte : (pfn - bb.startPfn) / 8 < bb.data.length := by
    unfold bmBlockBits at hbits
    omega
  simp only [BmBlock.mem_setPfns, BmBlock.Holds, testBitAt_setBitAt hbyte, Bool.or_eq_true,
    decide_eq_true_eq]
  constructor
  · rintro ⟨hq, hbit | hbit⟩
    · exact .inr ⟨hq, hbit⟩
    · exact .inl (by omega)
  · rintro (rfl | ⟨hq, hbit⟩)
    · exact ⟨⟨hs, he⟩, .inr rfl⟩
    · exact ⟨hq, .inl hbit⟩

theorem mem_setPfns_clearBit {bb : BmBlock} (hbits : bmBlockBits bb ≤ 8 * bb.data.length)
    (hh : bb.Holds pfn) (q : Nat) :
    q ∈ ({ bb with data := clearBitAt bb.data (pfn - bb.startPfn) } : BmBlock).setPfns ↔
      q ≠ pfn ∧ q ∈ bb.setPfns := by
  obtain ⟨hs, he⟩ := hh
  have hbyte : (pfn - bb.startPfn) / 8 < bb.data.length := by
    unfold bmBlockBits at hbits
    omega
  simp only [BmBlock.mem_setPfns, BmBlock.Holds, testBitAt_clearBitAt hbyte, Bool.and_eq_true,
    Bool.not_eq_eq_eq_not, Bool.not_true, decide_eq_false_iff_not]
  constructor
  · rintro ⟨hq, hbit, hne⟩
    exact ⟨fun h => hne (by omega), hq, hbit⟩
  · rintro ⟨hne, hq, hbit⟩
    exact ⟨hq, hbit, fun h => hne (by omega)⟩

end Bits

/-! ### `memory_bm_next_pfn` -/

section NextPfn

theorem start_le_of_mem_flatMap {bb : BmBlock} {rest : List BmBlock} (hwf : BlocksWf (bb :: rest))
    {q : Nat} (hq : q ∈ (bb :: rest).flatMap BmBlock.setPfns) : bb.startPfn ≤ q := by
  rw [List.flatMap_cons, List.mem_append] at hq
  rcases hq with hq | hq
  · exact (BmBlock.mem_setPfns.mp hq).1.1
  · obtain ⟨bb', hbb', hq⟩ := List.mem_flatMap.mp hq
    have h₁ := (BmBlock.mem_setPfns.mp hq).1.1
    have h₂ := (List.pairwise_cons.mp hwf.sorted).1 bb' hbb'
    have h₃ := (hwf.range bb List.mem_cons_self).1
    omega

theorem end_le_of_mem_flatMap {bb : BmBlock} {rest : List BmBlock} (hwf : BlocksWf (bb :: rest))
    {q : Nat} (hq : q ∈ rest.flatMap BmBlock.setPfns) : bb.endPfn ≤ q := by
  obtain ⟨bb', hbb', hq⟩ := List.mem_flatMap.mp hq
  have h₁ := (BmBlock.mem_setPfns.mp hq).1.1
  have h₂ := (List.pairwise_cons.mp hwf.sorted).1 bb' hbb'
  omega

theorem setPfns_lt_of_findNextBit {bb : BmBlock} {bit : Nat}
    (hnone : ∀ j, bit ≤ j → j < bmBlockBits bb → testBitAt bb.data j = false) {q : Nat}
    (hq : q ∈ bb.setPfns) : q < bb.startPfn + bit := by
  obtain ⟨⟨hs, he⟩, hset⟩ := BmBlock.mem_setPfns.mp hq
  by_contra hge
  have := hnone (q - bb.startPfn) (by omega) (by unfold bmBlockBits; omega)
  rw [hset] at this
  exact Bool.noConfusion this

theorem scanBlocks_some {p : Nat} {pos : BmPosition} :
    ∀ {bb : BmBlock} {rest : List BmBlock} {bit i : Nat}, BlocksWf (bb :: rest) →
      bit ≤ bmBlockBits bb → scanBlocks bit (bb :: rest) i = some (p, pos) →
      IsLeast {q | q ∈ (bb :: rest).flatMap BmBlock.setPfns ∧ bb.startPfn + bit ≤ q} p ∧
        ∃ k bk, (bb :: rest)[k]? = some bk ∧ bk.Holds p ∧ pos = ⟨i + k, p - bk.startPfn + 1⟩
  | bb, rest, bit, i, hwf, hbit, h => by
    have hbb := (hwf.range bb List.mem_cons_self).1
    have hbits : bmBlockBits bb = bb.endPfn - bb.startPfn := rfl
    unfold scanBlocks at h
    split_ifs at h with hfound
    · -- a set bit in the first block: the least set pfn from `bit` on
      rcases @findNextBit_spec bb.data (bmBlockBits bb) bit with
        ⟨hlo, -, hset, hbefore⟩ | ⟨hend, -⟩
      · simp only [Option.some.injEq, Prod.mk.injEq] at h
        obtain ⟨rfl, rfl⟩ := h
        have hmem : bb.startPfn + findNextBit bb.data (bmBlockBits bb) bit ∈ bb.setPfns := by
          rw [BmBlock.mem_setPfns, Nat.add_sub_cancel_left]
          exact ⟨⟨Nat.le_add_right _ _, by omega⟩, hset⟩
        refine ⟨⟨⟨List.mem_append_left _ hmem, by omega⟩, ?_⟩, 0, bb, rfl,
          (BmBlock.mem_setPfns.mp hmem).1, by simp⟩
        rintro q ⟨hq, hbq⟩
        rw [List.flatMap_cons, List.mem_append] at hq
        rcases hq with hq | hq
        · -- a set pfn of the first block before the one found would be a set bit before it
          obtain ⟨⟨hqs, -⟩, hqset⟩ := BmBlock.mem_setPfns.mp hq
          by_contra hlt
          have := hbefore (q - bb.startPfn) (by omega) (by omega)
          rw [hqset] at this
          exact Bool.noConfusion this
        · have := end_le_of_mem_flatMap hwf hq
          omega
      · omega
    · -- no set bit in the first block from `bit` on: the loop goes on with the next block
      have hnone : ∀ j, bit ≤ j → j < bmBlockBits bb → testBitAt bb.data j = false := by
        rcases @findNextBit_spec bb.data (bmBlockBits bb) bit with
          ⟨-, hlt, -, -⟩ | ⟨-, hnone⟩
        · exact absurd hlt hfound
        · exact hnone
      cases rest with
      | nil => simp [scanBlocks] at h
      | cons bb' rest =>
        have hwf' := hwf.sublist (List.sublist_cons_self bb (bb' :: rest))
        obtain ⟨⟨⟨hp, -⟩, hleast⟩, k, bk, hk, hhp, hpos⟩ :=
          scanBlocks_some hwf' (Nat.zero_le _) h
        have hpast : bb.endPfn ≤ p := end_le_of_mem_flatMap hwf hp
        have hbp : bb.startPfn + bit ≤ p := by omega
        have hpos' : pos = ⟨i + (k + 1), p - bk.startPfn + 1⟩ := by
          rw [hpos, Nat.add_right_comm, Nat.add_assoc]
        refine ⟨⟨⟨List.mem_append_right _ hp, hbp⟩, ?_⟩, k + 1, bk, hk, hhp, hpos'⟩
        rintro q ⟨hq, hbq⟩
        rw [List.flatMap_cons, List.mem_append] at hq
        rcases hq with hq | hq
        · exact absurd hbq (Nat.not_le_of_lt (setPfns_lt_of_findNextBit hnone hq))
        · exact hleast ⟨hq, by have := start_le_of_mem_flatMap hwf' hq; omega⟩

theorem scanBlocks_none :
    ∀ {bb : BmBlock} {rest : List BmBlock} {bit i : Nat}, BlocksWf (bb :: rest) →
      scanBlocks bit (bb :: rest) i = none →
      ∀ q ∈ (bb :: rest).flatMap BmBlock.setPfns, q < bb.startPfn + bit
  | bb, rest, bit, i, hwf, h => by
    unfold scanBlocks at h
    split_ifs at h with hfound
    have hnone : ∀ j, bit ≤ j → j < bmBlockBits bb → testBitAt bb.data j = false := by
      rcases @findNextBit_spec bb.data (bmBlockBits bb) bit with
        ⟨-, hlt, -, -⟩ | ⟨-, hnone⟩
      · exact absurd hlt hfound
      · exact hnone
    intro q hq
    rw [List.flatMap_cons, List.mem_append] at hq
    rcases hq with hq | hq
    · exact setPfns_lt_of_findNextBit hnone hq
    · -- the blocks after the first have no set pfn at all
      cases rest with
      | nil => simp at hq
      | cons bb' rest =>
        have hwf' := hwf.sublist (List.sublist_cons_self bb (bb' :: rest))
        have h₁ := scanBlocks_none hwf' h q hq
        have h₂ := start_le_of_mem_flatMap hwf' hq
        omega

variable (head : BmBlock) {bm : BlockBitmap}

/-- `memory_bm_next_pfn` moves only the iterator, or resets the positions. -/
@[simp] theorem memoryBmNextPfn_blocks : (memoryBmNextPfn head bm).2.blocks = bm.blocks := by
  unfold memoryBmNextPfn
  split <;> rfl

@[simp] theorem positionReset_memoryBmNextPfn :
    (memoryBmNextPfn head bm).2.positionReset = bm.positionReset := by
  unfold memoryBmNextPfn
  split <;> rfl

theorem memoryBmNextPfn_of_none (h : (memoryBmNextPfn head bm).1 = none) :
    (memoryBmNextPfn head bm).2 = bm.positionReset := by
  unfold memoryBmNextPfn at h ⊢
  split
  · rename_i heq
    rw [heq] at h
    cases h
  · rfl

/-- `memory_bm_next_pfn` from the iterator at bit `bm.iter.bit` of the block `bb`: the least set
pfn at or past it and the iterator just past that pfn, or, when there is none, `BM_END_OF_MAP` and
the positions reset. -/
theorem memoryBmNextPfn_spec (hwf : BlocksWf bm.blocks) {bb : BmBlock}
    (hbb : bm.blocks[bm.iter.block]? = some bb) (hbit : bm.iter.bit ≤ bmBlockBits bb) :
    (∃ p j bk, IsLeast {q | q ∈ bm.setPfns ∧ bb.startPfn + bm.iter.bit ≤ q} p ∧
      bm.blocks[j]? = some bk ∧ bk.Holds p ∧
      memoryBmNextPfn head bm = (some p, { bm with iter := ⟨j, p - bk.startPfn + 1⟩ })) ∨
    ((∀ q ∈ bm.setPfns, q < bb.startPfn + bm.iter.bit) ∧
      memoryBmNextPfn head bm = (none, bm.positionReset)) := by
  obtain ⟨hi, hbb'⟩ := List.getElem?_eq_some_iff.mp hbb
  have hdrop : bm.blocks.drop bm.iter.block = bb :: bm.blocks.drop (bm.iter.block + 1) := by
    rw [List.drop_eq_getElem_cons hi, hbb']
  have hwf' : BlocksWf (bb :: bm.blocks.drop (bm.iter.block + 1)) :=
    hdrop ▸ hwf.sublist (List.drop_sublist _ _)
  -- the set pfns of the blocks before the iterator's lie before it
  have hpre : ∀ q ∈ (bm.blocks.take bm.iter.block).flatMap BmBlock.setPfns, q < bb.startPfn := by
    intro q hq
    have := (setPfns_around hwf hi).1 hq
    rwa [hbb'] at this
  have hsplit : ∀ q, q ∈ bm.setPfns ↔ q ∈ (bm.blocks.take bm.iter.block).flatMap BmBlock.setPfns ∨
      q ∈ (bb :: bm.blocks.drop (bm.iter.block + 1)).flatMap BmBlock.setPfns := by
    intro q
    rw [setPfns, ← List.take_append_drop bm.iter.block bm.blocks, List.flatMap_append,
      List.mem_append, List.take_append_drop, hdrop]
  have hnext : memoryBmNextPfn head bm =
      match scanBlocks bm.iter.bit (bb :: bm.blocks.drop (bm.iter.block + 1)) bm.iter.block with
      | some (pfn, pos) => (some pfn, { bm with iter := pos })
      | none => (none, bm.positionReset) := by
    rw [← hdrop]
    simp [memoryBmNextPfn, nextFound, hi]
  cases hs : scanBlocks bm.iter.bit (bb :: bm.blocks.drop (bm.iter.block + 1)) bm.iter.block with
  | some r =>
    obtain ⟨p, pos⟩ := r
    obtain ⟨⟨⟨hp, hbp⟩, hleast⟩, k, bk, hk, hhp, rfl⟩ := scanBlocks_some hwf' hbit hs
    refine .inl ⟨p, bm.iter.block + k, bk, ⟨⟨(hsplit p).mpr (.inr hp), hbp⟩, ?_⟩, ?_, hhp, ?_⟩
    · rintro q ⟨hq, hbq⟩
      rcases (hsplit q).mp hq with hq | hq
      · exact absurd hbq (by have := hpre q hq; omega)
      · exact hleast ⟨hq, hbq⟩
    · rw [← hk, ← hdrop, List.getElem?_drop]
    · rw [hnext, hs]
  | none =>
    refine .inr ⟨fun q hq => ?_, by rw [hnext, hs]⟩
    rcases (hsplit q).mp hq with hq | hq
    · have := hpre q hq
      omega
    · exact scanBlocks_none hwf' hs q hq

end NextPfn

end BlockBitmap

end TuxOnIceFastboot.Snapshot
