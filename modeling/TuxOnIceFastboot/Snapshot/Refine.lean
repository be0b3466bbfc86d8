import TuxOnIceFastboot.Snapshot.BlockBitmap

/-!
# The block lists of memory bitmaps refine sets of pfns (`snapshot.c`)

`Refines bm m` relates a `struct memory_bitmap` to the set of pfns it stands for (`MemoryBitmap`):
the blocks are well formed, `cur` and `iter` stand at blocks, the pfns whose bits are set are those
of the set, and for every pfn a block holds the iterator stands at or before it exactly when the
set's iterator does. Each call on a pfn some block holds keeps the relation and returns what the
call on the set returns (`call_refines`); so does every run of such calls (`run_refines`), from a
bitmap `memory_bm_create` lays over a layout with a pfn (`create_refines`).

`memory_bm_clear`, `memory_bm_copy` and `memory_bm_dup` walk a bitmap with `memory_bm_next_pfn`.
With enough rounds they empty the set, add the source's pfns to the destination's, and make the
destination a copy of the source (`memoryBmClear_refines`, `memoryBmCopy_refines`,
`memoryBmDup_refines`). The layout needs a pfn: with none there is no block, and
`memory_bm_next_pfn` would read the list head as a block.
-/

namespace TuxOnIceFastboot.Snapshot

open TuxOnIceFastboot.Lib

namespace BlockBitmap

/-- A block list stands for a set of pfns. -/
structure Refines (bm : BlockBitmap) (m : MemoryBitmap) : Prop where
  wf : BlocksWf bm.blocks
  cur_lt : bm.cur.block < bm.blocks.length
  iter_at : ∃ r, (bm.blocks.map BmBlock.range)[bm.iter.block]? = some r ∧
    bm.iter.bit ≤ r.2 - r.1 ∧ ∀ q, bm.Covers q → (m.iter ≤ q ↔ r.1 + bm.iter.bit ≤ q)
  mem_iff : ∀ q, q ∈ m.bits ↔ q ∈ bm.setPfns

section Run

variable (head : BmBlock)

/-- A call on the block list; `none` is a `BUG_ON`. -/
def call : BmCall → BlockBitmap → Option (BmReturn × BlockBitmap)
  | .setBit pfn, bm => (memoryBmSetBit head pfn bm).map fun bm => (.done, bm)
  | .clearBit pfn, bm => (memoryBmClearBit head pfn bm).map fun bm => (.done, bm)
  | .testBit pfn, bm => (memoryBmTestBit head pfn bm).map fun r => (.bit r.1, r.2)
  | .positionReset, bm => some (.done, bm.positionReset)
  | .nextPfn, bm => some (.pfn (memoryBmNextPfn head bm).1, (memoryBmNextPfn head bm).2)

/-- Calls one after the other: what they return, and the bitmap after them. -/
def run : List BmCall → BlockBitmap → Option (List BmReturn × BlockBitmap)
  | [], bm => some ([], bm)
  | c :: cs, bm => (call head c bm).bind fun r => (run cs r.2).map fun s => (r.1 :: s.1, s.2)

end Run

/-! ### The relation -/

section Relation

variable {bm bm' : BlockBitmap} {m : MemoryBitmap}

theorem covers_iff_of_ranges (h : bm'.blocks.map BmBlock.range = bm.blocks.map BmBlock.range)
    {q : Nat} : bm'.Covers q ↔ bm.Covers q := by
  have key : ∀ b : BlockBitmap, b.Covers q ↔
      ∃ r ∈ b.blocks.map BmBlock.range, r.1 ≤ q ∧ q < r.2 := by
    intro b
    simp [Covers, BmBlock.Holds, BmBlock.range]
  rw [key, key, h]

theorem ranges_modify_data {blocks : List BmBlock} {k : Nat} (hk : k < blocks.length)
    (g : List UInt8 → List UInt8) :
    (blocks.modify k fun bb => { bb with data := g bb.data }).map BmBlock.range =
      blocks.map BmBlock.range := by
  have hsplit : blocks = blocks.take k ++ blocks[k] :: blocks.drop (k + 1) := by
    rw [← List.drop_eq_getElem_cons hk, List.take_append_drop]
  rw [List.modify_eq_take_cons_drop hk]
  conv_rhs => rw [hsplit]
  rw [List.map_append, List.map_append, List.map_cons, List.map_cons]
  rfl

theorem iter_at_zero (hwf : BlocksWf bm.blocks) (hn : 0 < bm.blocks.length) :
    ∃ r, (bm.blocks.map BmBlock.range)[0]? = some r ∧ 0 ≤ r.2 - r.1 ∧
      ∀ q, bm.Covers q → (0 ≤ q ↔ r.1 + 0 ≤ q) := by
  refine ⟨bm.blocks[0].range, by simp [hn], Nat.zero_le _, fun q ⟨bb, hbb, hh⟩ => ?_⟩
  obtain ⟨j, hj, rfl⟩ := List.mem_iff_getElem.mp hbb
  have := hwf.start_le hn hj (Nat.zero_le j)
  have := hh.1
  simp only [BmBlock.range]
  omega

theorem Refines.positionReset (h : Refines bm m) : Refines bm.positionReset m.positionReset :=
  ⟨h.wf, Nat.lt_of_le_of_lt (Nat.zero_le _) h.cur_lt,
    iter_at_zero h.wf (Nat.lt_of_le_of_lt (Nat.zero_le _) h.cur_lt), h.mem_iff⟩

theorem Refines.congr {m' : MemoryBitmap} (h : Refines bm m) (hbits : ∀ q, q ∈ m'.bits ↔ q ∈ m.bits)
    (hiter : m'.iter = m.iter) : Refines bm m' := by
  refine ⟨h.wf, h.cur_lt, ?_, fun q => (hbits q).trans (h.mem_iff q)⟩
  rw [hiter]
  exact h.iter_at

theorem Refines.modify_data (h : Refines bm m) (g : List UInt8 → List UInt8)
    (hg : ∀ d, (g d).length = d.length) {k pfn : Nat} (hk : k < bm.blocks.length) {m' : MemoryBitmap}
    (hiter : m'.iter = m.iter)
    (hbits : ∀ q, q ∈ m'.bits ↔
      q ∈ (bm.blocks.modify k fun bb => { bb with data := g bb.data }).flatMap BmBlock.setPfns) :
    Refines ⟨bm.blocks.modify k fun bb => { bb with data := g bb.data },
      ⟨k, pfn - bm.blocks[k].startPfn + 1⟩, bm.iter⟩ m' := by
  have hr := ranges_modify_data hk g
  obtain ⟨r, hr', hbit, hiff⟩ := h.iter_at
  refine ⟨h.wf.modify_data k hg, by rw [List.length_modify]; exact hk,
    ⟨r, by rw [hr]; exact hr', hbit, fun q hq => ?_⟩, hbits⟩
  rw [hiter]
  exact hiff q ((covers_iff_of_ranges hr).mp hq)

end Relation

/-! ### One call -/

section Call

variable (head : BmBlock) {bm : BlockBitmap} {m : MemoryBitmap}

theorem Refines.setBit (h : Refines bm m) {pfn : Nat} (hc : bm.Covers pfn) :
    ∃ bm', memoryBmSetBit head pfn bm = some bm' ∧ Refines bm' (m.setBit pfn) ∧
      bm'.blocks.map BmBlock.range = bm.blocks.map BmBlock.range := by
  obtain ⟨bb, hbb, hh⟩ := hc
  obtain ⟨k, hk, rfl⟩ := List.mem_iff_getElem.mp hbb
  have hbits := (h.wf.range _ (List.getElem_mem hk)).2
  have hmem : ∀ q, q ∈ (m.setBit pfn).bits ↔ q ∈ (bm.blocks.modify k fun bb =>
      { bb with data := setBitAt bb.data (pfn - bm.blocks[k].startPfn) }).flatMap
        BmBlock.setPfns := by
    intro q
    rw [MemoryBitmap.mem_setBit, h.mem_iff,
      mem_setPfns_modify (fun d => setBitAt d (pfn - bm.blocks[k].startPfn)) hk
        (mem_setPfns_setBit hbits hh),
      setPfns_split hk, List.mem_append, List.mem_append]
    tauto
  exact ⟨_, memoryBmModifyBit_holds head setBitAt h.wf h.cur_lt hk hh,
    h.modify_data (fun d => setBitAt d (pfn - bm.blocks[k].startPfn)) (fun _ => length_setBitAt)
      hk rfl hmem,
    ranges_modify_data hk fun d => setBitAt d (pfn - bm.blocks[k].startPfn)⟩

theorem Refines.clearBit (h : Refines bm m) {pfn : Nat} (hc : bm.Covers pfn) :
    ∃ bm', memoryBmClearBit head pfn bm = some bm' ∧ Refines bm' (m.clearBit pfn) ∧
      bm'.blocks.map BmBlock.range = bm.blocks.map BmBlock.range := by
  obtain ⟨bb, hbb, hh⟩ := hc
  obtain ⟨k, hk, rfl⟩ := List.mem_iff_getElem.mp hbb
  have hbits := (h.wf.range _ (List.getElem_mem hk)).2
  have hmem : ∀ q, q ∈ (m.clearBit pfn).bits ↔ q ∈ (bm.blocks.modify k fun bb =>
      { bb with data := clearBitAt bb.data (pfn - bm.blocks[k].startPfn) }).flatMap
        BmBlock.setPfns := by
    intro q
    -- the blocks around the `k`-th do not hold `pfn`
    have hpre : q ∈ (bm.blocks.take k).flatMap BmBlock.setPfns → q ≠ pfn := fun hq heq => by
      have := (setPfns_around h.wf hk).1 hq
      have := hh.1
      omega
    have hpost : q ∈ (bm.blocks.drop (k + 1)).flatMap BmBlock.setPfns → q ≠ pfn :=
      fun hq heq => by
        have := (setPfns_around h.wf hk).2 hq
        have := hh.2
        omega
    rw [MemoryBitmap.mem_clearBit, h.mem_iff,
      mem_setPfns_modify (fun d => clearBitAt d (pfn - bm.blocks[k].startPfn)) hk
        (mem_setPfns_clearBit hbits hh),
      setPfns_split hk, List.mem_append, List.mem_append]
    tauto
  exact ⟨_, memoryBmModifyBit_holds head clearBitAt h.wf h.cur_lt hk hh,
    h.modify_data (fun d => clearBitAt d (pfn - bm.blocks[k].startPfn))
      (fun _ => length_clearBitAt) hk rfl hmem,
    ranges_modify_data hk fun d => clearBitAt d (pfn - bm.blocks[k].startPfn)⟩

theorem Refines.testBit (h : Refines bm m) {pfn : Nat} (hc : bm.Covers pfn) :
    ∃ bm', memoryBmTestBit head pfn bm = some (m.testBit pfn, bm') ∧ Refines bm' m ∧
      bm'.blocks = bm.blocks := by
  obtain ⟨bb, hbb, hh⟩ := hc
  obtain ⟨k, hk, rfl⟩ := List.mem_iff_getElem.mp hbb
  have hbit : m.testBit pfn = decide (pfn ∈ bm.setPfns) := by
    rw [Bool.eq_iff_iff, MemoryBitmap.testBit_eq_true, decide_eq_true_iff, h.mem_iff]
  refine ⟨{ bm with cur := ⟨k, pfn - bm.blocks[k].startPfn + 1⟩ }, ?_,
    ⟨h.wf, hk, h.iter_at, h.mem_iff⟩, rfl⟩
  rw [memoryBmTestBit_holds head h.wf h.cur_lt hk hh, hbit]

theorem Refines.nextPfn (h : Refines bm m) :
    (memoryBmNextPfn head bm).1 = m.nextPfn.1 ∧ Refines (memoryBmNextPfn head bm).2 m.nextPfn.2 := by
  obtain ⟨r, hr, hbit, hiff⟩ := h.iter_at
  rw [List.getElem?_map, Option.map_eq_some_iff] at hr
  obtain ⟨bb, hbb, rfl⟩ := hr
  -- the set pfns at or past the iterator are the same on both sides
  have hset : {q | q ∈ m.bits ∧ m.iter ≤ q} =
      {q | q ∈ bm.setPfns ∧ bb.startPfn + bm.iter.bit ≤ q} := by
    ext q
    constructor
    · rintro ⟨hq, hiq⟩
      have hq' := (h.mem_iff q).mp hq
      exact ⟨hq', (hiff q (covers_of_mem_setPfns hq')).mp hiq⟩
    · rintro ⟨hq, hiq⟩
      exact ⟨(h.mem_iff q).mpr hq, (hiff q (covers_of_mem_setPfns hq)).mpr hiq⟩
  rcases memoryBmNextPfn_spec head h.wf hbb hbit with ⟨p, j, bk, hleast, hbk, hhp, hnext⟩ |
    ⟨hall, hnext⟩
  · rw [MemoryBitmap.nextPfn_of_isLeast (by rw [hset]; exact hleast), hnext]
    obtain ⟨hs, he⟩ := hhp
    refine ⟨rfl, h.wf, h.cur_lt, ⟨bk.range, by rw [List.getElem?_map, hbk]; rfl, ?_, fun q _ => ?_⟩,
      h.mem_iff⟩
    · simp only [BmBlock.range]
      omega
    · simp only [BmBlock.range]
      omega
  · have hlt : ∀ q ∈ m.bits, q < m.iter := by
      intro q hq
      have hq' := (h.mem_iff q).mp hq
      have := hall q hq'
      by_contra hge
      exact absurd ((hiff q (covers_of_mem_setPfns hq')).mp (Nat.le_of_not_lt hge))
        (Nat.not_le_of_lt this)
    rw [MemoryBitmap.nextPfn_of_forall_lt hlt, hnext]
    exact ⟨rfl, h.positionReset⟩

/-- One call on a pfn some block holds returns what the call on the set returns, and keeps the
relation and the ranges of the blocks. -/
theorem call_refines (h : Refines bm m) {c : BmCall} (hc : ∀ pfn ∈ c.pfn?, bm.Covers pfn) :
    ∃ bm', call head c bm = some ((m.call c).1, bm') ∧ Refines bm' (m.call c).2 ∧
      bm'.blocks.map BmBlock.range = bm.blocks.map BmBlock.range := by
  cases c with
  | setBit pfn =>
    obtain ⟨bm', hset, h', hr⟩ := h.setBit head (hc pfn rfl)
    exact ⟨bm', by rw [call, hset]; rfl, h', hr⟩
  | clearBit pfn =>
    obtain ⟨bm', hclear, h', hr⟩ := h.clearBit head (hc pfn rfl)
    exact ⟨bm', by rw [call, hclear]; rfl, h', hr⟩
  | testBit pfn =>
    obtain ⟨bm', htest, h', hb⟩ := h.testBit head (hc pfn rfl)
    exact ⟨bm', by rw [call, htest]; rfl, h', by rw [hb]⟩
  | positionReset => exact ⟨bm.positionReset, rfl, h.positionReset, rfl⟩
  | nextPfn =>
    obtain ⟨hfst, h'⟩ := h.nextPfn head
    exact ⟨_, by rw [call, hfst]; rfl, h', by rw [memoryBmNextPfn_blocks]⟩

theorem Refines.findBit_eq_efault (h : Refines bm m) (pfn : Nat) :
    memoryBmFindBit head pfn bm = .error (-EFAULT) ↔ ¬ bm.Covers pfn := by
  constructor
  · rintro hfind ⟨bb, hbb, hh⟩
    obtain ⟨k, hk, rfl⟩ := List.mem_iff_getElem.mp hbb
    rw [memoryBmFindBit_holds head h.wf h.cur_lt hk hh] at hfind
    cases hfind
  · exact memoryBmFindBit_of_not_covers head h.cur_lt

end Call

/-! ### Runs -/

section Runs

variable (head : BmBlock)

/-- A run of calls on pfns the blocks hold returns what the run on the set returns. -/
theorem run_refines :
    ∀ (calls : List BmCall) (bm : BlockBitmap) (m : MemoryBitmap), Refines bm m →
      (∀ c ∈ calls, ∀ pfn ∈ c.pfn?, bm.Covers pfn) →
      ∃ bm', run head calls bm = some ((m.run calls).1, bm') ∧ Refines bm' (m.run calls).2 ∧
        bm'.blocks.map BmBlock.range = bm.blocks.map BmBlock.range
  | [], bm, _, h, _ => ⟨bm, rfl, h, rfl⟩
  | c :: cs, bm, m, h, hc => by
    obtain ⟨bm₁, hcall, h₁, hr₁⟩ := call_refines head h (hc c List.mem_cons_self)
    obtain ⟨bm₂, hrun, h₂, hr₂⟩ := run_refines cs bm₁ (m.call c).2 h₁
      fun c' hc' pfn hpfn => (covers_iff_of_ranges hr₁).mpr (hc c' (List.mem_cons_of_mem _ hc') pfn hpfn)
    refine ⟨bm₂, ?_, h₂, hr₂.trans hr₁⟩
    rw [run, hcall, Option.bind_some, hrun]
    rfl

theorem run_nextPfns :
    ∀ (n : Nat) (bm : BlockBitmap) (m : MemoryBitmap) (k : Nat), Refines bm m → m.IterAt k →
      m.bits.length = k + n →
      run head (List.replicate (n + 1) .nextPfn) bm =
        some ((m.run (List.replicate (n + 1) .nextPfn)).1, bm.positionReset)
  | 0, bm, m, k, h, hiter, hlen => by
    obtain ⟨hfst, -⟩ := h.nextPfn head
    have hend := MemoryBitmap.nextPfn_end (by rwa [hlen, Nat.add_zero] : m.IterAt m.bits.length)
    rw [hend] at hfst
    simp [run, call, MemoryBitmap.run, MemoryBitmap.call, hend, hfst,
      memoryBmNextPfn_of_none head hfst]
  | n + 1, bm, m, k, h, hiter, hlen => by
    have hk : k < m.bits.length := by omega
    obtain ⟨hnext, hiter'⟩ := MemoryBitmap.nextPfn_iterAt hiter hk
    obtain ⟨hfst, h₁⟩ := h.nextPfn head
    rw [hnext] at hfst h₁
    have ih := run_nextPfns n _ _ (k + 1) h₁ hiter' (by show m.bits.length = _; omega)
    rw [positionReset_memoryBmNextPfn] at ih
    rw [List.replicate_succ, run, call, MemoryBitmap.run, MemoryBitmap.call, hnext, hfst]
    simp [ih]

theorem run_walk {bm : BlockBitmap} {m : MemoryBitmap} (h : Refines bm m) :
    run head (.positionReset :: List.replicate (m.bits.length + 1) .nextPfn) bm =
      some ((m.run (.positionReset :: List.replicate (m.bits.length + 1) .nextPfn)).1,
        bm.positionReset) := by
  have hw := run_nextPfns head m.bits.length bm.positionReset m.positionReset 0 h.positionReset
    (MemoryBitmap.positionReset_iterAt m) (by simp)
  rw [run, call, Option.bind_some, hw, MemoryBitmap.run, MemoryBitmap.call]
  rfl

end Runs

/-! ### `memory_bm_clear`, `memory_bm_copy` and `memory_bm_dup` -/

section Loops

variable (head : BmBlock) {bm src dst : BlockBitmap} {m ms md : MemoryBitmap} {fuel : Nat}

theorem Refines.nextPfn_of_nil (h : Refines bm m) (hb : m.bits = []) :
    (memoryBmNextPfn head bm).1 = none ∧ Refines (memoryBmNextPfn head bm).2 MemoryBitmap.empty := by
  obtain ⟨hfst, h₁⟩ := h.nextPfn head
  rw [MemoryBitmap.nextPfn_of_forall_lt (by simp [hb])] at hfst h₁
  exact ⟨hfst, h₁.congr (by simp [hb, MemoryBitmap.empty]) rfl⟩

theorem clearLoop_of_nil (h : Refines bm m) (hb : m.bits = []) :
    ∃ bm', clearLoop head fuel (memoryBmNextPfn head bm).1 (memoryBmNextPfn head bm).2 = some bm' ∧
      Refines bm' MemoryBitmap.empty ∧ bm'.blocks.map BmBlock.range = bm.blocks.map BmBlock.range := by
  obtain ⟨hfst, h'⟩ := h.nextPfn_of_nil head hb
  rw [hfst, clearLoop]
  exact ⟨_, rfl, h', by rw [memoryBmNextPfn_blocks]⟩

theorem clearLoop_refines (fuel : Nat) :
    ∀ (bm : BlockBitmap) (m : MemoryBitmap), Refines bm m → m.IterAt 0 → m.bits.length ≤ fuel →
      ∃ bm', clearLoop head fuel (memoryBmNextPfn head bm).1 (memoryBmNextPfn head bm).2 =
        some bm' ∧ Refines bm' MemoryBitmap.empty ∧
        bm'.blocks.map BmBlock.range = bm.blocks.map BmBlock.range := by
  induction fuel with
  | zero =>
    intro bm m h _ hfuel
    exact clearLoop_of_nil head h (List.eq_nil_of_length_eq_zero (Nat.le_zero.mp hfuel))
  | succ fuel ih =>
    intro bm m h hiter hfuel
    cases hb : m.bits with
    | nil => exact clearLoop_of_nil head h hb
    | cons p rest =>
      -- the least set pfn comes next; once it is cleared the iterator is again before all
      obtain ⟨hnext, hclear, hiter'⟩ := MemoryBitmap.nextPfn_clear hiter hb
      obtain ⟨hfst, h₁⟩ := h.nextPfn head
      rw [hnext] at hfst h₁
      have hp : p ∈ (memoryBmNextPfn head bm).2.setPfns :=
        (h₁.mem_iff p).mp (by show p ∈ m.bits; rw [hb]; exact List.mem_cons_self)
      obtain ⟨bm₂, hbm₂, h₂, hr₂⟩ := h₁.clearBit head (covers_of_mem_setPfns hp)
      obtain ⟨bm', hloop, h', hr'⟩ := ih bm₂ _ h₂ hiter'
        (by rw [hclear]; rw [hb, List.length_cons] at hfuel; omega)
      refine ⟨bm', ?_, h', by rw [hr', hr₂, memoryBmNextPfn_blocks]⟩
      rw [hfst, clearLoop, hbm₂, Option.bind_some, hloop]

/-- `memory_bm_clear` empties the set. -/
theorem memoryBmClear_refines (h : Refines bm m) (hfuel : m.bits.length ≤ fuel) :
    ∃ bm', memoryBmClear head fuel bm = some bm' ∧ Refines bm' MemoryBitmap.empty ∧
      bm'.blocks.map BmBlock.range = bm.blocks.map BmBlock.range :=
  clearLoop_refines head fuel bm.positionReset m.positionReset h.positionReset
    (MemoryBitmap.positionReset_iterAt m) hfuel

theorem copyLoop_of_end (hs : Refines src ms) (hend : ms.IterAt ms.bits.length) (dst : BlockBitmap) :
    copyLoop head fuel (memoryBmNextPfn head src).1 (memoryBmNextPfn head src).2 dst =
        some ((memoryBmNextPfn head src).2, dst) ∧
      Refines (memoryBmNextPfn head src).2 ms.positionReset := by
  obtain ⟨hfst, hs'⟩ := hs.nextPfn head
  rw [MemoryBitmap.nextPfn_end hend] at hfst hs'
  rw [hfst, copyLoop]
  exact ⟨rfl, hs'⟩

theorem copyLoop_refines (n : Nat) :
    ∀ (fuel : Nat) (src dst : BlockBitmap) (ms md : MemoryBitmap) (k : Nat), Refines src ms →
      ms.IterAt k → ms.bits.length = k + n → n ≤ fuel → Refines dst md →
      (∀ q, src.Covers q → dst.Covers q) →
      ∃ src' dst', copyLoop head fuel (memoryBmNextPfn head src).1 (memoryBmNextPfn head src).2 dst =
          some (src', dst') ∧ Refines src' ms.positionReset ∧
        Refines dst' ((ms.bits.drop k).foldl MemoryBitmap.setBit md) ∧
        dst'.blocks.map BmBlock.range = dst.blocks.map BmBlock.range := by
  induction n with
  | zero =>
    intro fuel src dst ms md k hs hiter hlen _ hd _
    rw [Nat.add_zero] at hlen
    subst hlen
    obtain ⟨hloop, hs'⟩ := copyLoop_of_end head hs hiter dst
    refine ⟨_, dst, hloop, hs', ?_, rfl⟩
    rwa [List.drop_length, List.foldl_nil]
  | succ n ih =>
    intro fuel src dst ms md k hs hiter hlen hfuel hd hcov
    have hk : k < ms.bits.length := by omega
    obtain ⟨hnext, hiter'⟩ := MemoryBitmap.nextPfn_iterAt hiter hk
    obtain ⟨hfst, hs₁⟩ := hs.nextPfn head
    rw [hnext] at hfst hs₁
    obtain ⟨fuel, rfl⟩ : ∃ f, fuel = f + 1 := ⟨fuel - 1, by omega⟩
    -- the pfn the source returns is held in the destination, on the same layout
    obtain ⟨dst₁, hset, hd₁, hr₁⟩ := hd.setBit head
      (hcov _ (covers_of_mem_setPfns ((hs.mem_iff _).mp (List.getElem_mem hk))))
    have hcov₁ : ∀ q, (memoryBmNextPfn head src).2.Covers q → dst₁.Covers q := fun q hq =>
      (covers_iff_of_ranges hr₁).mpr
        (hcov q ((covers_iff_of_ranges (by rw [memoryBmNextPfn_blocks])).mp hq))
    obtain ⟨src', dst', hloop, hs', hd', hr'⟩ := ih fuel _ dst₁ _ _ (k + 1) hs₁ hiter'
      (by show ms.bits.length = _; omega) (by omega) hd₁ hcov₁
    refine ⟨src', dst', ?_, hs', ?_, hr'.trans hr₁⟩
    · rw [hfst, copyLoop, hset, Option.bind_some, hloop]
    · rwa [List.drop_eq_getElem_cons hk, List.foldl_cons]

/-- `memory_bm_copy(source, dest)` sets the source's pfns in the destination, and leaves the
source's positions reset. -/
theorem memoryBmCopy_refines (hs : Refines src ms) (hd : Refines dst md)
    (hfuel : ms.bits.length ≤ fuel) (hcov : ∀ q, src.Covers q → dst.Covers q) :
    ∃ src' dst', memoryBmCopy head fuel src dst = some (src', dst') ∧
      Refines src' ms.positionReset ∧ Refines dst' (ms.bits.foldl MemoryBitmap.setBit md) ∧
      dst'.blocks.map BmBlock.range = dst.blocks.map BmBlock.range :=
  copyLoop_refines head ms.bits.length fuel src.positionReset dst ms.positionReset md 0
    hs.positionReset (MemoryBitmap.positionReset_iterAt ms) (by simp) hfuel hd hcov

/-- `memory_bm_dup(source, dest)` makes the destination the source's set. -/
theorem memoryBmDup_refines (hs : Refines src ms) (hd : Refines dst md)
    (hfs : ms.bits.length ≤ fuel) (hfd : md.bits.length ≤ fuel)
    (hcov : ∀ q, src.Covers q → dst.Covers q) :
    ∃ src' dst', memoryBmDup head fuel src dst = some (src', dst') ∧
      Refines src' ms.positionReset ∧ Refines dst' ms.positionReset := by
  obtain ⟨dst₁, hclear, hd₁, hr₁⟩ := memoryBmClear_refines head hd hfd
  obtain ⟨src', dst', hcopy, hs', hd', -⟩ := memoryBmCopy_refines head hs hd₁ hfs
    fun q hq => (covers_iff_of_ranges hr₁).mpr (hcov q hq)
  refine ⟨src', dst', by rw [memoryBmDup, hclear, Option.bind_some, hcopy], hs',
    hd'.congr (fun q => ?_) (MemoryBitmap.iter_foldl_setBit ms.bits MemoryBitmap.empty).symm⟩
  rw [MemoryBitmap.mem_foldl_setBit]
  simp [MemoryBitmap.empty]

end Loops

/-! ### From `memory_bm_create` -/

section Create

variable (a : Arch) (zones : List Zone)

theorem covers_create (pfn : Nat) : (create a zones).Covers pfn ↔ ∃ z ∈ zones, z.Holds pfn :=
  memoryBmCreate_holds a zones pfn

theorem setPfns_create : (create a zones).setPfns = [] := by
  rw [List.eq_nil_iff_forall_not_mem]
  intro q hq
  obtain ⟨bb, hbb, -, hset⟩ := mem_setPfns.mp hq
  obtain ⟨e, -, hbb⟩ := List.mem_flatMap.mp hbb
  obtain ⟨r, -, rfl⟩ := List.mem_map.mp hbb
  rw [testBitAt_replicate_zero] at hset
  exact Bool.noConfusion hset

/-- A bitmap `memory_bm_create` lays over a layout with a pfn stands for the empty set. -/
theorem create_refines (hz : ∃ z ∈ zones, 0 < z.spannedPages) :
    Refines (create a zones) MemoryBitmap.empty := by
  obtain ⟨z, hz, hpos⟩ := hz
  have hn : 0 < (create a zones).blocks.length := by
    obtain ⟨bb, hbb, -⟩ := (covers_create a zones z.zoneStartPfn).mpr
      ⟨z, hz, Nat.le_refl _, by omega⟩
    exact List.length_pos_of_mem hbb
  refine ⟨memoryBmCreate_wf a zones, hn, iter_at_zero (memoryBmCreate_wf a zones) hn, fun q => ?_⟩
  rw [setPfns_create]
  rfl

end Create

/-- Memory bitmaps refine sets of pfns. On a zone layout with a pfn, `memory_bm_create` covers
exactly the pfns of the zones, with well-formed blocks in increasing pfn order. Any run of calls
on pfns of the zones returns what the calls on the set return, whatever the list head holds. After
it, `memory_bm_find_bit` fails with `-EFAULT` exactly for the pfns of no zone, and a reset and a
walk return the set pfns in increasing order, then `BM_END_OF_MAP` once, with the positions reset.
On bitmaps of the layout, `memory_bm_clear`, `memory_bm_copy` and `memory_bm_dup` empty the set,
add the source's pfns to the destination's, and make the destination the source's set. -/
theorem memory_bm_refines_pfn_set (a : Arch) (zones : List Zone)
    (hz : ∃ z ∈ zones, 0 < z.spannedPages) (head : BmBlock) :
    (∀ pfn, (create a zones).Covers pfn ↔ ∃ z ∈ zones, z.Holds pfn) ∧
      BlocksWf (create a zones).blocks ∧
      (∀ calls : List BmCall, (∀ c ∈ calls, ∀ pfn ∈ c.pfn?, ∃ z ∈ zones, z.Holds pfn) →
        ∃ bm, run head calls (create a zones) = some ((MemoryBitmap.empty.run calls).1, bm) ∧
          Refines bm (MemoryBitmap.empty.run calls).2 ∧
          (∀ head' pfn, memoryBmFindBit head' pfn bm = .error (-EFAULT) ↔
            ¬ ∃ z ∈ zones, z.Holds pfn) ∧
          run head (.positionReset ::
              List.replicate ((MemoryBitmap.empty.run calls).2.bits.length + 1) .nextPfn) bm =
            some (.done :: ((MemoryBitmap.empty.run calls).2.bits.map fun p => .pfn (some p)) ++
              [.pfn none], bm.positionReset)) ∧
      (∀ (src dst : BlockBitmap) (ms md : MemoryBitmap) (fuel : Nat), Refines src ms →
        Refines dst md → src.blocks.map BmBlock.range = (create a zones).blocks.map BmBlock.range →
        dst.blocks.map BmBlock.range = (create a zones).blocks.map BmBlock.range →
        ms.bits.length ≤ fuel → md.bits.length ≤ fuel →
        (∃ dst', memoryBmClear head fuel dst = some dst' ∧ Refines dst' MemoryBitmap.empty) ∧
        (∃ src' dst', memoryBmCopy head fuel src dst = some (src', dst') ∧
          Refines src' ms.positionReset ∧ Refines dst' (ms.bits.foldl MemoryBitmap.setBit md)) ∧
        (∃ src' dst', memoryBmDup head fuel src dst = some (src', dst') ∧
          Refines src' ms.positionReset ∧ Refines dst' ms.positionReset)) := by
  have hcreate := create_refines a zones hz
  refine ⟨covers_create a zones, memoryBmCreate_wf a zones, fun calls hcalls => ?_,
    fun src dst ms md fuel hs hd hrs hrd hfs hfd => ?_⟩
  · obtain ⟨bm, hrun, h, hr⟩ := run_refines head calls _ _ hcreate
      fun c hc pfn hpfn => (covers_create a zones pfn).mpr (hcalls c hc pfn hpfn)
    refine ⟨bm, hrun, h, fun head' pfn => ?_, ?_⟩
    · rw [h.findBit_eq_efault head' pfn, covers_iff_of_ranges hr, covers_create]
    · rw [run_walk head h, MemoryBitmap.run_walk]
  · -- the source and the destination are laid over the same layout
    have hsd : ∀ q, src.Covers q → dst.Covers q := fun q hq =>
      (covers_iff_of_ranges hrd).mpr ((covers_iff_of_ranges hrs).mp hq)
    obtain ⟨dst₁, hclear, hd₁, -⟩ := memoryBmClear_refines head hd hfd
    obtain ⟨src₂, dst₂, hcopy, hs₂, hd₂, -⟩ := memoryBmCopy_refines head hs hd hfs hsd
    exact ⟨⟨dst₁, hclear, hd₁⟩, ⟨src₂, dst₂, hcopy, hs₂, hd₂⟩,
      memoryBmDup_refines head hs hd hfs hfd hsd⟩

/-- Two zones on an x86-64 machine, a block each: pfns set in the second block and then the first,
so that the lookups scan backwards and forwards from the block last found, tested, and one
cleared. -/
theorem memory_bm_refines_pfn_set_two_zones :
    (∃ z ∈ [(⟨0, 3⟩ : Zone), ⟨40000, 2⟩], 0 < z.spannedPages) ∧
      ∃ bm, run ⟨0, 0, []⟩ [.setBit 40001, .setBit 1, .testBit 1, .testBit 40001, .clearBit 1,
          .testBit 1] (create Arch.x86_64 [⟨0, 3⟩, ⟨40000, 2⟩]) =
        some ([.done, .done, .bit true, .bit true, .done, .bit false], bm) := by
  have hz : ∃ z ∈ [(⟨0, 3⟩ : Zone), ⟨40000, 2⟩], 0 < z.spannedPages := by decide
  obtain ⟨bm, hrun, -⟩ := (memory_bm_refines_pfn_set Arch.x86_64 [⟨0, 3⟩, ⟨40000, 2⟩] hz
    ⟨0, 0, []⟩).2.2.1 [.setBit 40001, .setBit 1, .testBit 1, .testBit 40001, .clearBit 1,
      .testBit 1] (by decide)
  exact ⟨hz, bm, hrun⟩

end BlockBitmap

end TuxOnIceFastboot.Snapshot
