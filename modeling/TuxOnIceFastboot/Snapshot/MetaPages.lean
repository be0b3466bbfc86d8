import TuxOnIceFastboot.Snapshot.Refine
import TuxOnIceFastboot.Lib.Bytes
import TuxOnIceFastboot.Lib.Indexed

/-!
# The pfn list of the image (`snapshot.c`)

After the image header, `snapshot_read_next` hands out `nr_meta_pages` pages of `unsigned long`s.
`pack_pfns` fills each from `orig_bm` with `memory_bm_next_pfn`, `PAGE_SIZE / sizeof(long)` to a
page, and writes `BM_END_OF_MAP` after the last set pfn. On resume, `snapshot_write_next` gives
each of these pages to `unpack_orig_pfns`. That sets, in the bitmap `memory_bm_create` laid over
the resume kernel's zones, the bit of each pfn up to `BM_END_OF_MAP`, and fails with `-EFAULT` at a
pfn no block holds.

A page carries the next `PAGE_SIZE / sizeof(long)` set pfns, and `BM_END_OF_MAP` once they run out
(`packLoop_spec`), so the `nr_meta_pages` pages lay the set pfns out page by page, every page but
the last full (`readMetaPages_nrMetaPages`). Unpacking stops at `BM_END_OF_MAP`, and unpacking two runs of pfns in turn is
unpacking them joined (`unpackLoop_append`). So unpacking the `nr_meta_pages` pages is unpacking
the set pfns of `orig_bm` in order (`writeMetaPages_readMetaPages`). The resume kernel's bitmap
then holds exactly the pfns of `orig_bm` (`meta_pages_round_trip`), unless one of them lies
outside its zones, when the resume fails with `-EFAULT` (`meta_pages_outside_zones_efault`).
-/

namespace TuxOnIceFastboot.Snapshot

open TuxOnIceFastboot.Lib

/-- `BM_END_OF_MAP`: `~0UL`. -/
def bmEndOfMap (a : Arch) : Nat := 2 ^ a.longBits - 1

/-- `PAGE_SIZE / sizeof(long)`: the words of a meta page. -/
def pfnsPerPage (a : Arch) : Nat := a.pageSize / a.sizeofLong

/-- `nr_meta_pages` as `swsusp_save` sets it: `DIV_ROUND_UP(nr_pages * sizeof(long), PAGE_SIZE)`. -/
def nrMetaPages (a : Arch) (nrPages : Nat) : Nat :=
  (nrPages * a.sizeofLong + a.pageSize - 1) / a.pageSize

theorem nrMetaPages_bounds {a : Arch} (hdvd : a.sizeofLong ∣ a.pageSize) (n : Nat) :
    0 < pfnsPerPage a ∧ n ≤ nrMetaPages a n * pfnsPerPage a ∧
      (nrMetaPages a n - 1) * pfnsPerPage a ≤ n := by
  obtain ⟨K, hK⟩ := hdvd
  have hP := a.pageSize_pos
  have hs : 0 < a.sizeofLong := Nat.pos_of_ne_zero fun h0 => by
    rw [h0, Nat.zero_mul] at hK
    omega
  have hKpos : 0 < K := Nat.pos_of_ne_zero fun h0 => by
    rw [h0, Nat.mul_zero] at hK
    omega
  have hper : pfnsPerPage a = K := by rw [pfnsPerPage, hK, Nat.mul_div_cancel_left _ hs]
  have hnr : nrMetaPages a n = (n + K - 1) / K := by
    rw [nrMetaPages, hK, div_round_up_mul hs hKpos]
  rw [hper, hnr]
  exact ⟨hKpos, div_round_up_bounds hKpos n⟩

namespace BlockBitmap

section Code

variable (a : Arch) (head : BmBlock)

/-- The loop of `pack_pfns` with `n` words of the page left: the words it writes, and `orig_bm`
after it. -/
def packLoop : Nat → BlockBitmap → List Nat × BlockBitmap
  | 0, bm => ([], bm)
  | n + 1, bm =>
    let r := memoryBmNextPfn head bm
    let w := r.1.getD (bmEndOfMap a)
    if w = bmEndOfMap a then ([w], r.2)
    else
      let s := packLoop n r.2
      (w :: s.1, s.2)

/-- `memset(buffer, 0, PAGE_SIZE)`, then `pack_pfns(buffer, &orig_bm)`: the page, and `orig_bm`
after it. -/
def packPfns (bm : BlockBitmap) : List Nat × BlockBitmap :=
  let r := packLoop a head (pfnsPerPage a) bm
  (writeAt (List.replicate (pfnsPerPage a) 0) 0 r.1, r.2)

/-- `memory_bm_pfn_present`, which moves `cur` as its `memory_bm_find_bit` does. -/
def memoryBmPfnPresent (pfn : Nat) (bm : BlockBitmap) : Bool × BlockBitmap :=
  match memoryBmFindBit head pfn bm with
  | .ok r => (true, r.1)
  | .error _ => (false, bm)

/-- The loop of `unpack_orig_pfns` over the words left: `0` or `-EFAULT`, and the bitmap; `none`
is the `BUG_ON` of `memory_bm_set_bit`. -/
def unpackLoop : List Nat → BlockBitmap → Option (Int × BlockBitmap)
  | [], bm => some (0, bm)
  | w :: ws, bm =>
    if w = bmEndOfMap a then some (0, bm)
    else
      let r := memoryBmPfnPresent head w bm
      if r.1 then (memoryBmSetBit head w r.2).bind (unpackLoop ws)
      else some (-EFAULT, r.2)

/-- `unpack_orig_pfns(buf, bm)`, over the `PAGE_SIZE / sizeof(long)` words of the page. -/
def unpackOrigPfns (buf : List Nat) (bm : BlockBitmap) : Option (Int × BlockBitmap) :=
  unpackLoop a head (buf.take (pfnsPerPage a)) bm

/-- The meta pages `snapshot_read_next` hands out for `n` pages, each packed from `orig_bm` where
the one before left it, and `orig_bm` after them. -/
def readMetaPages : Nat → BlockBitmap → List (List Nat) × BlockBitmap
  | 0, bm => ([], bm)
  | n + 1, bm =>
    let p := packPfns a head bm
    let r := readMetaPages n p.2
    (p.1 :: r.1, r.2)

/-- `snapshot_write_next` on the meta pages: `unpack_orig_pfns` on each in turn into `copy_bm`,
returning at the first error. -/
def writeMetaPages : List (List Nat) → BlockBitmap → Option (Int × BlockBitmap)
  | [], bm => some (0, bm)
  | p :: ps, bm =>
    (unpackOrigPfns a head p bm).bind fun r => if r.1 = 0 then writeMetaPages ps r.2 else some r

end Code

/-! ### Packing -/

section Pack

variable {a : Arch} (head : BmBlock)

/-- From the iterator after `k` of the set pfns, `n` words of a page: the next set pfns, and
`BM_END_OF_MAP` once they run out. The iterator then stands after `k + n` set pfns, or is reset. -/
theorem packLoop_spec : ∀ (n : Nat) (bm : BlockBitmap) (m : MemoryBitmap) (k : Nat),
    Refines bm m → m.IterAt k → k ≤ m.bits.length → (∀ q ∈ m.bits, q ≠ bmEndOfMap a) →
    ∃ bm' m', packLoop a head n bm =
        ((m.bits.drop k).take n ++ (if m.bits.length < k + n then [bmEndOfMap a] else []), bm') ∧
      Refines bm' m' ∧ m'.bits = m.bits ∧ (k + n ≤ m.bits.length → m'.IterAt (k + n))
  | 0, bm, m, k, h, hiter, hk, _ => ⟨bm, m, by simp [packLoop, Nat.not_lt.mpr hk], h, rfl,
      fun _ => hiter⟩
  | n + 1, bm, m, k, h, hiter, hk, hend => by
    obtain ⟨hfst, h₁⟩ := h.nextPfn head
    rcases Nat.lt_or_eq_of_le hk with hlt | rfl
    · -- the `k`-th set pfn is written, and the loop goes on from the next
      obtain ⟨hnext, hiter₁⟩ := MemoryBitmap.nextPfn_iterAt hiter hlt
      rw [hnext] at hfst h₁
      have hw : m.bits[k] ≠ bmEndOfMap a := hend _ (List.getElem_mem hlt)
      obtain ⟨bm', m', hloop, h', hbits, hiter'⟩ :=
        packLoop_spec n _ _ (k + 1) h₁ hiter₁ hlt hend
      dsimp only at hloop hbits hiter'
      refine ⟨bm', m', ?_, h', hbits, fun hle => ?_⟩
      · rw [packLoop, hfst]
        simp only [Option.getD_some, if_neg hw, hloop, List.drop_eq_getElem_cons hlt,
          List.take_succ_cons, List.cons_append, show k + 1 + n = k + (n + 1) by omega]
      · rw [show k + (n + 1) = k + 1 + n by omega]
        exact hiter' (by omega)
    · -- past the last set pfn: `BM_END_OF_MAP`, and the iterator reset
      have hend' := MemoryBitmap.nextPfn_end hiter
      rw [hend'] at hfst h₁
      refine ⟨_, _, ?_, h₁, rfl, fun hle => absurd hle (by omega)⟩
      rw [packLoop, hfst]
      simp

theorem packPfns_fst (bm : BlockBitmap) :
    (packPfns a head bm).1 = (packLoop a head (pfnsPerPage a) bm).1 ++
      List.replicate (pfnsPerPage a - (packLoop a head (pfnsPerPage a) bm).1.length) 0 := by
  rw [packPfns, writeAt_zero, List.drop_replicate]

end Pack

/-! ### Unpacking -/

section Unpack

variable {a : Arch} (head : BmBlock) {bm : BlockBitmap} {m : MemoryBitmap}

theorem Refines.pfnPresent (h : Refines bm m) {pfn : Nat} (hc : bm.Covers pfn) :
    ∃ bm', memoryBmPfnPresent head pfn bm = (true, bm') ∧ Refines bm' m ∧
      bm'.blocks = bm.blocks := by
  obtain ⟨bb, hbb, hh⟩ := hc
  obtain ⟨k, hk, rfl⟩ := List.mem_iff_getElem.mp hbb
  refine ⟨{ bm with cur := ⟨k, pfn - bm.blocks[k].startPfn + 1⟩ }, ?_,
    ⟨h.wf, hk, h.iter_at, h.mem_iff⟩, rfl⟩
  rw [memoryBmPfnPresent, memoryBmFindBit_holds head h.wf h.cur_lt hk hh]

theorem Refines.pfnPresent_of_not_covers (h : Refines bm m) {pfn : Nat} (hc : ¬ bm.Covers pfn) :
    memoryBmPfnPresent head pfn bm = (false, bm) := by
  rw [memoryBmPfnPresent, memoryBmFindBit_of_not_covers head h.cur_lt hc]

/-- Unpacking two runs of pfns one after the other is unpacking them joined: the second is
unpacked after the first unless that failed. -/
theorem unpackLoop_append (ws₂ : List Nat) :
    ∀ (ws₁ : List Nat) (bm : BlockBitmap), (∀ w ∈ ws₁, w ≠ bmEndOfMap a) →
      unpackLoop a head (ws₁ ++ ws₂) bm =
        (unpackLoop a head ws₁ bm).bind fun r => if r.1 = 0 then unpackLoop a head ws₂ r.2 else some r
  | [], bm, _ => by simp [unpackLoop]
  | w :: ws₁, bm, hend => by
    have hw : w ≠ bmEndOfMap a := hend w List.mem_cons_self
    simp only [List.cons_append, unpackLoop, if_neg hw]
    split
    · rw [Option.bind_assoc]
      congr 1
      funext bm'
      exact unpackLoop_append ws₂ ws₁ bm' fun w' hw' => hend w' (List.mem_cons_of_mem _ hw')
    · -- `-EFAULT` ends the loop
      simp [EFAULT]

@[simp] theorem unpackLoop_end (rest : List Nat) (bm : BlockBitmap) :
    unpackLoop a head (bmEndOfMap a :: rest) bm = some (0, bm) := by
  rw [unpackLoop, if_pos rfl]

theorem bind_ret_zero (o : Option (Int × BlockBitmap)) :
    (o.bind fun r => if r.1 = 0 then some (0, r.2) else some r) = o := by
  rcases o with _ | ⟨x, bm'⟩
  · rfl
  · by_cases hx : x = 0
    · subst hx
      rfl
    · simp [hx]

theorem unpackLoop_end_append (ws rest : List Nat) (hend : ∀ w ∈ ws, w ≠ bmEndOfMap a) :
    unpackLoop a head (ws ++ bmEndOfMap a :: rest) bm = unpackLoop a head ws bm := by
  rw [unpackLoop_append head _ ws bm hend]
  simp only [unpackLoop_end]
  exact bind_ret_zero _

theorem unpackLoop_refines :
    ∀ (ws : List Nat) (bm : BlockBitmap) (m : MemoryBitmap), Refines bm m →
      (∀ w ∈ ws, w ≠ bmEndOfMap a ∧ bm.Covers w) →
      ∃ bm', unpackLoop a head ws bm = some (0, bm') ∧ Refines bm' (ws.foldl MemoryBitmap.setBit m) ∧
        bm'.blocks.map BmBlock.range = bm.blocks.map BmBlock.range
  | [], bm, _, h, _ => ⟨bm, rfl, h, rfl⟩
  | w :: ws, bm, m, h, hws => by
    obtain ⟨hw, hc⟩ := hws w List.mem_cons_self
    obtain ⟨bm₁, hpresent, h₁, hb₁⟩ := h.pfnPresent head hc
    have hc₁ : bm₁.Covers w := by rw [Covers, hb₁]; exact hc
    obtain ⟨bm₂, hset, h₂, hr₂⟩ := h₁.setBit head hc₁
    have hr : bm₂.blocks.map BmBlock.range = bm.blocks.map BmBlock.range := by rw [hr₂, hb₁]
    obtain ⟨bm', hloop, h', hr'⟩ := unpackLoop_refines ws bm₂ _ h₂ fun w' hw' =>
      ⟨(hws w' (List.mem_cons_of_mem _ hw')).1,
        (covers_iff_of_ranges hr).mpr (hws w' (List.mem_cons_of_mem _ hw')).2⟩
    refine ⟨bm', ?_, h', hr'.trans hr⟩
    rw [unpackLoop, if_neg hw, hpresent]
    simp only [if_true, hset, Option.bind_some, hloop]

theorem unpackLoop_efault :
    ∀ (ws : List Nat) (bm : BlockBitmap) (m : MemoryBitmap), Refines bm m →
      (∀ w ∈ ws, w ≠ bmEndOfMap a) → (∃ w ∈ ws, ¬ bm.Covers w) →
      ∃ bm', unpackLoop a head ws bm = some (-EFAULT, bm')
  | [], _, _, _, _, ⟨_, hw, _⟩ => absurd hw List.not_mem_nil
  | w :: ws, bm, m, h, hend, hout => by
    rw [unpackLoop, if_neg (hend w List.mem_cons_self)]
    by_cases hc : bm.Covers w
    · -- `w` is set, and the pfn no block holds is further on
      obtain ⟨bm₁, hpresent, h₁, hb₁⟩ := h.pfnPresent head hc
      have hc₁ : bm₁.Covers w := by rw [Covers, hb₁]; exact hc
      obtain ⟨bm₂, hset, h₂, hr₂⟩ := h₁.setBit head hc₁
      have hr : bm₂.blocks.map BmBlock.range = bm.blocks.map BmBlock.range := by rw [hr₂, hb₁]
      obtain ⟨w', hw', hnc⟩ := hout
      have hw'' : w' ∈ ws := by
        rcases List.mem_cons.mp hw' with rfl | hw'
        · exact absurd hc hnc
        · exact hw'
      obtain ⟨bm', hloop⟩ := unpackLoop_efault ws bm₂ _ h₂
        (fun w hw => hend w (List.mem_cons_of_mem _ hw))
        ⟨w', hw'', fun hc' => hnc ((covers_iff_of_ranges hr).mp hc')⟩
      refine ⟨bm', ?_⟩
      simp only [hpresent, if_true, hset, Option.bind_some, hloop]
    · exact ⟨bm, by rw [h.pfnPresent_of_not_covers head hc]; rfl⟩

end Unpack

/-! ### The meta pages -/

section Pages

variable {a : Arch} (head : BmBlock)

/-- The page that carries `chunk`, at most a page of pfns: the pfns, `BM_END_OF_MAP` when they do
not fill the page, and zeros after. -/
def metaPage (a : Arch) (chunk : List Nat) : List Nat :=
  let words := chunk ++ if chunk.length < pfnsPerPage a then [bmEndOfMap a] else []
  words ++ List.replicate (pfnsPerPage a - words.length) 0

theorem packPfns_metaPage {bm : BlockBitmap} {m : MemoryBitmap} {k : Nat} (h : Refines bm m)
    (hiter : m.IterAt k) (hk : k ≤ m.bits.length) (hend : ∀ q ∈ m.bits, q ≠ bmEndOfMap a) :
    (packPfns a head bm).1 = metaPage a ((m.bits.drop k).take (pfnsPerPage a)) := by
  obtain ⟨bm', m', hloop, -⟩ := packLoop_spec head (pfnsPerPage a) bm m k h hiter hk hend
  have hcond : m.bits.length < k + pfnsPerPage a ↔
      ((m.bits.drop k).take (pfnsPerPage a)).length < pfnsPerPage a := by
    simp only [List.length_take, List.length_drop]
    omega
  rw [packPfns_fst, hloop, metaPage]
  simp only [hcond]

/-- The pages `snapshot_read_next` packs from the iterator after `k` set pfns, while the pfns
reach the last of them: page `i` carries the pfns from the `k + i * PAGE_SIZE / sizeof(long)`-th
on. -/
theorem readMetaPages_layout :
    ∀ (c : Nat) (bm : BlockBitmap) (m : MemoryBitmap) (k : Nat), Refines bm m → m.IterAt k →
      k ≤ m.bits.length → k + (c - 1) * pfnsPerPage a ≤ m.bits.length →
      (∀ q ∈ m.bits, q ≠ bmEndOfMap a) →
      (readMetaPages a head c bm).1 = (List.range c).map fun i =>
        metaPage a ((m.bits.drop (k + i * pfnsPerPage a)).take (pfnsPerPage a))
  | 0, _, _, _, _, _, _, _, _ => rfl
  | c + 1, bm, m, k, h, hiter, hk, hlast, hend => by
    obtain ⟨bm', m', hloop, h', hbits, hiter'⟩ :=
      packLoop_spec head (pfnsPerPage a) bm m k h hiter hk hend
    have hnext : (packPfns a head bm).2 = bm' := by rw [packPfns, hloop]
    -- the pages after the first start a page of pfns further on
    have hrest : (readMetaPages a head c bm').1 = (List.range c).map fun i =>
        metaPage a ((m.bits.drop (k + (i + 1) * pfnsPerPage a)).take (pfnsPerPage a)) := by
      by_cases hc : c = 0
      · subst hc
        rfl
      have hle : pfnsPerPage a ≤ c * pfnsPerPage a := Nat.le_mul_of_pos_left _ (by omega)
      have hpred : (c - 1) * pfnsPerPage a = c * pfnsPerPage a - pfnsPerPage a := Nat.sub_one_mul _ _
      have hlast' : k + c * pfnsPerPage a ≤ m.bits.length := by simpa using hlast
      have hfull : k + pfnsPerPage a ≤ m.bits.length := by omega
      have hnext' : k + pfnsPerPage a + (c - 1) * pfnsPerPage a ≤ m'.bits.length := by
        rw [hbits]
        omega
      rw [readMetaPages_layout c bm' m' (k + pfnsPerPage a) h' (hiter' hfull) (hbits ▸ hfull) hnext'
        (hbits ▸ hend), hbits]
      refine List.map_congr_left fun i _ => ?_
      rw [Nat.succ_mul, Nat.add_right_comm, Nat.add_assoc]
    show (packPfns a head bm).1 :: (readMetaPages a head c (packPfns a head bm).2).1 = _
    rw [packPfns_metaPage head h hiter hk hend, hnext, hrest, List.range_succ_eq_map, List.map_cons,
      List.map_map, Nat.zero_mul, Nat.add_zero]
    rfl

theorem unpackOrigPfns_packPfns {bm : BlockBitmap} {m : MemoryBitmap} {k : Nat} (h : Refines bm m)
    (hiter : m.IterAt k) (hk : k ≤ m.bits.length) (hend : ∀ q ∈ m.bits, q ≠ bmEndOfMap a)
    (copy : BlockBitmap) :
    unpackOrigPfns a head (packPfns a head bm).1 copy =
      unpackLoop a head ((m.bits.drop k).take (pfnsPerPage a)) copy := by
  obtain ⟨bm', m', hloop, -⟩ := packLoop_spec head (pfnsPerPage a) bm m k h hiter hk hend
  have hchunk : ∀ w ∈ (m.bits.drop k).take (pfnsPerPage a), w ≠ bmEndOfMap a :=
    fun w hw => hend w (List.mem_of_mem_drop (List.mem_of_mem_take hw))
  rw [unpackOrigPfns, packPfns_fst, hloop]
  split
  · -- the pfns ran out: the marker, then zeros past the end of the loop
    next hlt =>
    have hlen : ((m.bits.drop k).take (pfnsPerPage a)).length < pfnsPerPage a := by
      simp only [List.length_take, List.length_drop]
      omega
    rw [List.take_of_length_le (by simp; omega), List.append_assoc, List.singleton_append,
      unpackLoop_end_append head _ _ hchunk]
  · -- a full page of pfns, with no room left for zeros
    next hge =>
    have hlen : ((m.bits.drop k).take (pfnsPerPage a)).length = pfnsPerPage a := by
      simp only [List.length_take, List.length_drop]
      omega
    rw [List.append_nil, hlen, Nat.sub_self, List.replicate_zero, List.append_nil,
      List.take_of_length_le (by rw [hlen])]

/-- Unpacking the pages `snapshot_read_next` packs from the iterator after `k` set pfns, enough
of them and not more than one past the last pfn, is unpacking the set pfns from the `k`-th on. -/
theorem writeMetaPages_readMetaPages (hK : 0 < pfnsPerPage a) :
    ∀ (c : Nat) (bm : BlockBitmap) (m : MemoryBitmap) (k : Nat), Refines bm m → m.IterAt k →
      k ≤ m.bits.length → m.bits.length ≤ k + c * pfnsPerPage a →
      k + (c - 1) * pfnsPerPage a ≤ m.bits.length → (∀ q ∈ m.bits, q ≠ bmEndOfMap a) →
      ∀ copy, writeMetaPages a head (readMetaPages a head c bm).1 copy =
        unpackLoop a head (m.bits.drop k) copy
  | 0, bm, m, k, _, _, hk, hlen, _, _, copy => by
    rw [List.drop_of_length_le (by omega)]
    rfl
  | c + 1, bm, m, k, h, hiter, hk, hlen, hlast, hend, copy => by
    have hchunk : ∀ w ∈ (m.bits.drop k).take (pfnsPerPage a), w ≠ bmEndOfMap a :=
      fun w hw => hend w (List.mem_of_mem_drop (List.mem_of_mem_take hw))
    obtain ⟨bm', m', hloop, h', hbits, hiter'⟩ :=
      packLoop_spec head (pfnsPerPage a) bm m k h hiter hk hend
    have hnext : (packPfns a head bm).2 = bm' := by rw [packPfns, hloop]
    rw [readMetaPages, writeMetaPages, unpackOrigPfns_packPfns head h hiter hk hend, hnext]
    by_cases hfull : k + pfnsPerPage a ≤ m.bits.length
    · -- a full page; the pages after it carry the pfns from the next one on
      have hlen' : m'.bits.length ≤ k + pfnsPerPage a + c * pfnsPerPage a := by
        rw [hbits]
        simp only [Nat.add_mul, Nat.one_mul] at hlen
        omega
      have hlast' : k + pfnsPerPage a + (c - 1) * pfnsPerPage a ≤ m'.bits.length := by
        rw [hbits]
        rcases c with _ | c
        · simpa using hfull
        · simp only [Nat.add_sub_cancel, Nat.add_mul, Nat.one_mul] at hlast ⊢
          omega
      have ih := writeMetaPages_readMetaPages hK c bm' m' (k + pfnsPerPage a) h' (hiter' hfull)
        (by rw [hbits]; exact hfull) hlen' hlast' (by rw [hbits]; exact hend)
      simp only [ih, hbits]
      rw [← unpackLoop_append head _ _ copy hchunk, ← List.drop_drop, List.take_append_drop]
    · -- the last page: its pfns run out, and no page follows
      have hc : c = 0 := by
        rcases c with _ | c
        · rfl
        · rw [Nat.add_sub_cancel, Nat.add_mul] at hlast
          omega
      subst hc
      rw [List.take_of_length_le (by simp; omega)]
      exact bind_ret_zero _

theorem writeMetaPages_nrMetaPages (hdvd : a.sizeofLong ∣ a.pageSize) {orig : BlockBitmap}
    {m : MemoryBitmap} (horig : Refines orig m) (hend : ∀ q ∈ m.bits, q ≠ bmEndOfMap a)
    (copy : BlockBitmap) :
    writeMetaPages a head (readMetaPages a head (nrMetaPages a m.bits.length) orig.positionReset).1
        copy = unpackLoop a head m.bits copy := by
  obtain ⟨hK, hlen, hlast⟩ := nrMetaPages_bounds hdvd m.bits.length
  rw [writeMetaPages_readMetaPages head hK _ _ m.positionReset 0 horig.positionReset
    (MemoryBitmap.positionReset_iterAt m) (Nat.zero_le _) (by simpa [Nat.zero_add] using hlen)
    (by simpa [Nat.zero_add] using hlast) hend]
  rfl

/-- The `nr_meta_pages` pages read from a reset `orig_bm`: page `i` carries the `i`-th page of
its set pfns, and every page but the last is full. -/
theorem readMetaPages_nrMetaPages (hdvd : a.sizeofLong ∣ a.pageSize) {orig : BlockBitmap}
    {m : MemoryBitmap} (horig : Refines orig m) (hend : ∀ q ∈ m.bits, q ≠ bmEndOfMap a) :
    (readMetaPages a head (nrMetaPages a m.bits.length) orig.positionReset).1 =
        (List.range (nrMetaPages a m.bits.length)).map (fun i =>
          metaPage a ((m.bits.drop (i * pfnsPerPage a)).take (pfnsPerPage a))) ∧
      ∀ i, i + 1 < nrMetaPages a m.bits.length →
        ((m.bits.drop (i * pfnsPerPage a)).take (pfnsPerPage a)).length = pfnsPerPage a := by
  obtain ⟨-, -, hlast⟩ := nrMetaPages_bounds hdvd m.bits.length
  refine ⟨?_, fun i hi => ?_⟩
  · have h := readMetaPages_layout head _ _ m.positionReset 0 horig.positionReset
      (MemoryBitmap.positionReset_iterAt m) (Nat.zero_le _) (by simpa [Nat.zero_add] using hlast)
      hend
    simp only [Nat.zero_add] at h
    exact h
  · -- a page before the last ends a page of pfns before the last page starts
    have hle : (i + 1) * pfnsPerPage a ≤ (nrMetaPages a m.bits.length - 1) * pfnsPerPage a :=
      Nat.mul_le_mul_right _ (by omega)
    rw [Nat.succ_mul] at hle
    simp only [List.length_take, List.length_drop]
    omega

end Pages

/-! ### From the suspend kernel's `orig_bm` to the resume kernel's `copy_bm` -/

section RoundTrip

/-- The pfn list of the image round-trips. On an architecture whose page holds a whole number of
`long`s, take any `orig_bm` whose set pfns are not `BM_END_OF_MAP`. `snapshot_read_next` resets it
and packs `nr_meta_pages` pages from it: page `i` carries the `i`-th page of its set pfns, every
page but the last is full, and `BM_END_OF_MAP` follows the last pfn when the last page is not
full. `snapshot_write_next` unpacks them in turn into the bitmap `memory_bm_create` lays over any
resume kernel's zones that hold those pfns. Every page then returns `0`, and that bitmap, over its
own blocks, holds exactly the set pfns of `orig_bm`. -/
theorem meta_pages_round_trip (a : Arch) (hdvd : a.sizeofLong ∣ a.pageSize) (head : BmBlock)
    (orig : BlockBitmap) (m : MemoryBitmap) (horig : Refines orig m)
    (hend : ∀ q ∈ m.bits, q ≠ bmEndOfMap a) (zones : List Zone)
    (hz : ∃ z ∈ zones, 0 < z.spannedPages) (hcov : ∀ q ∈ m.bits, ∃ z ∈ zones, z.Holds q) :
    (readMetaPages a head (nrMetaPages a m.bits.length) orig.positionReset).1 =
        (List.range (nrMetaPages a m.bits.length)).map (fun i =>
          metaPage a ((m.bits.drop (i * pfnsPerPage a)).take (pfnsPerPage a))) ∧
      (∀ i, i + 1 < nrMetaPages a m.bits.length →
        ((m.bits.drop (i * pfnsPerPage a)).take (pfnsPerPage a)).length = pfnsPerPage a) ∧
      ∃ copy, writeMetaPages a head
        (readMetaPages a head (nrMetaPages a m.bits.length) orig.positionReset).1 (create a zones) =
          some (0, copy) ∧
      copy.setPfns = m.bits ∧ copy.blocks.map BmBlock.range = (create a zones).blocks.map BmBlock.range := by
  refine ⟨(readMetaPages_nrMetaPages head hdvd horig hend).1,
    (readMetaPages_nrMetaPages head hdvd horig hend).2, ?_⟩
  rw [writeMetaPages_nrMetaPages head hdvd horig hend]
  obtain ⟨copy, hloop, hcopy, hr⟩ := unpackLoop_refines head m.bits (create a zones)
    MemoryBitmap.empty (create_refines a zones hz)
    fun q hq => ⟨hend q hq, (covers_create a zones q).mpr (hcov q hq)⟩
  refine ⟨copy, hloop, ?_, hr⟩
  -- both lists are increasing, and hold the same pfns
  apply List.Pairwise.eq_of_mem_iff (setPfns_sorted hcopy.wf) m.sorted
  intro q
  rw [← hcopy.mem_iff, MemoryBitmap.mem_foldl_setBit]
  simp [MemoryBitmap.empty]

/-- The list head of the witnesses: what it holds does not matter. -/
def anyHead : BmBlock := ⟨0, 0, []⟩

/-- Two pfns of one zone, saved on x86-64 and resumed over the same zone. -/
theorem meta_pages_round_trip_x86_64 :
    ∃ orig, Refines orig ((MemoryBitmap.empty.setBit 5).setBit 7) ∧
      ∃ copy, writeMetaPages Arch.x86_64 anyHead
          (readMetaPages Arch.x86_64 anyHead (nrMetaPages Arch.x86_64 2) orig.positionReset).1
          (create Arch.x86_64 [⟨0, 16⟩]) = some (0, copy) ∧ copy.setPfns = [5, 7] := by
  have hz : ∃ z ∈ [(⟨0, 16⟩ : Zone)], 0 < z.spannedPages := ⟨⟨0, 16⟩, by simp, by decide⟩
  have hcov : ∀ q, q < 16 → (create Arch.x86_64 [⟨0, 16⟩]).Covers q := fun q hq =>
    (covers_create Arch.x86_64 _ q).mpr ⟨⟨0, 16⟩, by simp, Nat.zero_le q, hq⟩
  -- the suspend kernel's `orig_bm`, with the bits of 5 and 7 set
  obtain ⟨bm₁, -, h₁, hr₁⟩ := (create_refines Arch.x86_64 _ hz).setBit anyHead (hcov 5 (by decide))
  obtain ⟨bm₂, -, h₂, -⟩ := h₁.setBit anyHead
    ((covers_iff_of_ranges hr₁).mpr (hcov 7 (by decide)))
  have hbits : ((MemoryBitmap.empty.setBit 5).setBit 7).bits = [5, 7] := by decide
  obtain ⟨-, -, copy, hwrite, hset, -⟩ := meta_pages_round_trip Arch.x86_64 (by decide) anyHead bm₂ _ h₂
    (by rw [hbits]; decide) [⟨0, 16⟩] hz (by rw [hbits]; decide)
  rw [hbits] at hwrite hset
  exact ⟨bm₂, h₂, copy, hwrite, hset⟩

/-- A resume kernel whose zones miss a pfn of the image refuses it: unpacking the meta pages fails
with `-EFAULT`. -/
theorem meta_pages_outside_zones_efault (a : Arch) (hdvd : a.sizeofLong ∣ a.pageSize)
    (head : BmBlock) (orig : BlockBitmap) (m : MemoryBitmap) (horig : Refines orig m)
    (hend : ∀ q ∈ m.bits, q ≠ bmEndOfMap a) (zones : List Zone)
    (hz : ∃ z ∈ zones, 0 < z.spannedPages) (hout : ∃ q ∈ m.bits, ∀ z ∈ zones, ¬ z.Holds q) :
    ∃ copy, writeMetaPages a head
        (readMetaPages a head (nrMetaPages a m.bits.length) orig.positionReset).1 (create a zones) =
          some (-EFAULT, copy) := by
  rw [writeMetaPages_nrMetaPages head hdvd horig hend]
  obtain ⟨q, hq, hno⟩ := hout
  exact unpackLoop_efault head m.bits (create a zones) MemoryBitmap.empty
    (create_refines a zones hz) hend
    ⟨q, hq, fun hc => by
      obtain ⟨z, hz', hh⟩ := (covers_create a zones q).mp hc
      exact hno z hz' hh⟩

/-- Pfn 20 saved on x86-64, resumed over a zone of 16 pages. -/
theorem meta_pages_outside_zones_x86_64 :
    ∃ orig, Refines orig (MemoryBitmap.empty.setBit 20) ∧
      ∃ copy, writeMetaPages Arch.x86_64 anyHead
          (readMetaPages Arch.x86_64 anyHead (nrMetaPages Arch.x86_64 1) orig.positionReset).1
          (create Arch.x86_64 [⟨0, 16⟩]) = some (-EFAULT, copy) := by
  have hz : ∃ z ∈ [(⟨0, 32⟩ : Zone)], 0 < z.spannedPages := ⟨⟨0, 32⟩, by simp, by decide⟩
  have hz' : ∃ z ∈ [(⟨0, 16⟩ : Zone)], 0 < z.spannedPages := ⟨⟨0, 16⟩, by simp, by decide⟩
  -- the suspend kernel's zone holds pfn 20
  obtain ⟨bm₁, -, h₁, -⟩ := (create_refines Arch.x86_64 _ hz).setBit anyHead
    ((covers_create Arch.x86_64 _ 20).mpr ⟨⟨0, 32⟩, by simp, by decide, by decide⟩)
  have hbits : (MemoryBitmap.empty.setBit 20).bits = [20] := by decide
  obtain ⟨copy, hwrite⟩ := meta_pages_outside_zones_efault Arch.x86_64 (by decide) anyHead bm₁ _ h₁
    (by rw [hbits]; decide) [⟨0, 16⟩] hz' ⟨20, by rw [hbits]; simp, by decide⟩
  rw [hbits] at hwrite
  exact ⟨bm₁, h₁, copy, hwrite⟩

end RoundTrip

end BlockBitmap

end TuxOnIceFastboot.Snapshot
