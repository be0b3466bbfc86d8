import TuxOnIceFastboot.Extent.Serialise
import TuxOnIceFastboot.Header.Reserve

/-!
# The blocks of a memory bitmap in the header (`snapshot.c`)

`memory_bm_create` lays a bitmap over the memory of the machine: `create_mem_extents` merges the
pfn ranges of the populated zones into extents, and each extent is cut into blocks of
`BM_BITS_PER_BLOCK` pfns, the last one of an extent partial; each block has a page of bits.
`memory_bm_write` passes to `rw_chunk` the number of blocks, then for each block its
`start_pfn` and `end_pfn` (one chunk of two `unsigned long`s) and its page. `memory_bm_read`
creates a bitmap on the layout of the resuming kernel and, for each block read, looks up the
block that starts at the `start_pfn` read, checks its `end_pfn` and reads the page into it.

A bitmap here is its list of blocks (`BmBlock`), each with its range and the bytes of its page;
the header is a list of bytes, as for the extent chains (`Extent.readChunk`). The extents
`create_mem_extents` builds are sorted and apart (`createMemExtents_sep`), so the blocks start
at increasing pfns (`memoryBmCreate_starts`) and the lookup by `start_pfn` finds the block of the
same place. A bitmap on a layout, whatever its bits, written and read back on the same layout
is the same bitmap (`memoryBmRead_write`); the chunks written are those the header reservation
counts (`memoryBmWrite_sizes`). Allocation failures are left out.
-/

namespace TuxOnIceFastboot.Snapshot

open TuxOnIceFastboot.Lib

/-! ### `memory_bm_create` -/

/-- A populated zone: `zone_start_pfn` and `spanned_pages`. -/
structure Zone where
  zoneStartPfn : Nat
  spannedPages : Nat
  deriving DecidableEq, Repr

/-- The pfns of a zone: `spanned_pages` of them from `zone_start_pfn`. -/
def Zone.Holds (z : Zone) (pfn : Nat) : Prop :=
  z.zoneStartPfn ≤ pfn ∧ pfn < z.zoneStartPfn + z.spannedPages

instance (z : Zone) (pfn : Nat) : Decidable (z.Holds pfn) := by
  unfold Zone.Holds
  infer_instance

/-- `struct mem_extent`: the pfns from `start` up to `end` (`stop` here), `end` excluded. -/
structure MemExtent where
  start : Nat
  stop : Nat
  deriving DecidableEq, Repr

/-- The pfns of an extent. -/
def MemExtent.Holds (e : MemExtent) (pfn : Nat) : Prop := e.start ≤ pfn ∧ pfn < e.stop

/-- The merging loop of `create_mem_extents`: the extents after the one a zone was merged into
that start at or before the zone's end are absorbed into it. -/
def mergeFollowing (zoneEnd : Nat) (ext : MemExtent) : List MemExtent → List MemExtent
  | [] => [ext]
  | cur :: rest =>
    if zoneEnd < cur.start then ext :: cur :: rest
    else
      mergeFollowing zoneEnd (if zoneEnd < cur.stop then { ext with stop := cur.stop } else ext) rest

/-- One zone of `create_mem_extents`: the walk stops at the first extent that does not end before
the zone starts. A zone that ends before that extent starts gets a new extent in front of it (at
the end of the list when the walk found none); one that meets it is merged into it. -/
def addZone (zoneStart zoneEnd : Nat) : List MemExtent → List MemExtent
  | [] => [⟨zoneStart, zoneEnd⟩]
  | ext :: rest =>
    if zoneStart ≤ ext.stop then
      if zoneEnd < ext.start then ⟨zoneStart, zoneEnd⟩ :: ext :: rest
      else
        mergeFollowing zoneEnd
          ⟨if zoneStart < ext.start then zoneStart else ext.start,
            if zoneEnd > ext.stop then zoneEnd else ext.stop⟩ rest
    else ext :: addZone zoneStart zoneEnd rest

/-- `create_mem_extents`, over the populated zones in the order `for_each_populated_zone` visits
them. -/
def createMemExtents (zones : List Zone) : List MemExtent :=
  zones.foldl (fun exts z => addZone z.zoneStartPfn (z.zoneStartPfn + z.spannedPages) exts) []

/-- `BM_BITS_PER_BLOCK`: `PAGE_SIZE << 3`, the bits of one page. -/
def bmBitsPerBlock (a : Arch) : Nat := a.pageSize * 8

/-- The `start_pfn` and `end_pfn` that `memory_bm_create` gives `n` blocks of an extent, from
`pfn` with `pages` pfns left: whole blocks while `pages >= BM_BITS_PER_BLOCK`, then the rest. -/
def blockRanges (bits : Nat) : Nat → Nat → Nat → List (Nat × Nat)
  | 0, _, _ => []
  | n + 1, pfn, pages =>
    if pages ≥ bits then (pfn, pfn + bits) :: blockRanges bits n (pfn + bits) (pages - bits)
    -- "This is executed only once in the loop": `pages` is left as it was
    else (pfn, pfn + pages) :: blockRanges bits n (pfn + pages) pages

/-- `struct bm_block`: `start_pfn`, `end_pfn` and the bytes of its page of bits. -/
structure BmBlock where
  startPfn : Nat
  endPfn : Nat
  data : List UInt8
  deriving DecidableEq, Repr

/-- The pfns a block stands for: `start_pfn` and `end_pfn`. -/
def BmBlock.range (bb : BmBlock) : Nat × Nat := (bb.startPfn, bb.endPfn)

/-- A block stands for `pfn`: the test of the forward scan of `memory_bm_find_bit`. -/
def BmBlock.Holds (bb : BmBlock) (pfn : Nat) : Prop := bb.startPfn ≤ pfn ∧ pfn < bb.endPfn

instance (bb : BmBlock) (pfn : Nat) : Decidable (bb.Holds pfn) := by
  unfold BmBlock.Holds
  infer_instance

/-- `bm_block_bits`: the number of pfns a block stands for. -/
def bmBlockBits (bb : BmBlock) : Nat := bb.endPfn - bb.startPfn

/-- The blocks of a bitmap: each stands for some pfns, no more than its page has bits, and each
ends at or before the start of every block after it. -/
structure BlocksWf (blocks : List BmBlock) : Prop where
  range : ∀ bb ∈ blocks, bb.startPfn < bb.endPfn ∧ bmBlockBits bb ≤ 8 * bb.data.length
  sorted : blocks.Pairwise fun bb bb' => bb.endPfn ≤ bb'.startPfn

variable (a : Arch)

/-- The blocks of an extent: `create_bm_block_list` allocates `DIV_ROUND_UP(pages,
BM_BITS_PER_BLOCK)` of them, and `get_image_page` gives each a zeroed page. -/
def extentBlocks (ext : MemExtent) : List BmBlock :=
  let pages := ext.stop - ext.start
  (blockRanges (bmBitsPerBlock a) ((pages + bmBitsPerBlock a - 1) / bmBitsPerBlock a) ext.start
    pages).map fun r => ⟨r.1, r.2, List.replicate a.pageSize 0⟩

/-- `memory_bm_create` on a zone layout: the blocks of its extents, in order. -/
def memoryBmCreate (zones : List Zone) : List BmBlock :=
  (createMemExtents zones).flatMap (extentBlocks a)

/-! ### `memory_bm_write` and `memory_bm_read` -/

/-- The chunks `memory_bm_write` passes for one block: `start_pfn` and `end_pfn` in one, then the
page. -/
def blockChunks (bb : BmBlock) : List (List UInt8) :=
  [leBytes a.sizeofLong bb.startPfn ++ leBytes a.sizeofLong bb.endPfn, bb.data]

/-- `memory_bm_write(bm, rw_chunk)`: the buffers of its `rw_chunk` calls, the number of blocks (an
`unsigned int`) first. -/
def memoryBmWrite (bm : List BmBlock) : List (List UInt8) :=
  leBytes a.sizeofInt bm.length :: bm.flatMap (blockChunks a)

/-- The first block of the list that starts at `pfn`, and its place in the list. -/
def findBlock (pfn : Nat) : List BmBlock → Option (Nat × BmBlock)
  | [] => none
  | bb :: rest =>
    if bb.startPfn = pfn then some (0, bb) else (findBlock pfn rest).map fun r => (r.1 + 1, r.2)

/-- The loop of `memory_bm_read` with `n` blocks left to read into the bitmap `bm`, from what is
left of the header: the return value, the bitmap (emptied by `memory_bm_free` after an error),
and what is left of the header. `readError` is what a failing `rw_chunk` read returns. -/
def memoryBmReadLoop (readError : Int) :
    Nat → List BmBlock → List UInt8 → Int × List BmBlock × List UInt8
  | 0, bm, header => (0, bm, header)
  | n + 1, bm, header =>
    match Extent.readChunk a.sizeofLong header with
    | none => (readError, [], header)
    | some (bs, header) =>
      match findBlock (leValue bs) bm with
      -- "Failed to load memory bitmap."
      | none => (-EINVAL, [], header)
      | some (i, bb) =>
        match Extent.readChunk a.sizeofLong header with
        | none => (readError, [], header)
        | some (bs, header) =>
          -- "End PFN doesn't match what was saved."
          if leValue bs ≠ bb.endPfn then (-EINVAL, [], header)
          else
            match Extent.readChunk a.pageSize header with
            | none => (readError, [], header)
            | some (data, header) =>
              memoryBmReadLoop readError n (bm.set i { bb with data := data }) header

/-- `memory_bm_read(bm, rw_chunk)` on a resuming kernel of zone layout `zones`. -/
def memoryBmRead (zones : List Zone) (readError : Int) (header : List UInt8) :
    Int × List BmBlock × List UInt8 :=
  match Extent.readChunk a.sizeofInt header with
  | none => (readError, [], header)
  | some (bs, header) => memoryBmReadLoop a readError (leValue bs) (memoryBmCreate a zones) header

/-! ### The extents are sorted and apart -/

/-- The extents are ranges, sorted, each ending before the next starts. -/
def MemExtentsSep (exts : List MemExtent) : Prop :=
  (∀ e ∈ exts, e.start ≤ e.stop) ∧ exts.Pairwise fun e e' => e.stop < e'.start

section Extents

variable {zoneStart zoneEnd : Nat}

theorem MemExtentsSep.nil : MemExtentsSep [] := ⟨by simp, List.Pairwise.nil⟩

theorem MemExtentsSep.cons {e : MemExtent} {exts : List MemExtent} (h : MemExtentsSep exts)
    (he : e.start ≤ e.stop) (hlt : ∀ e' ∈ exts, e.stop < e'.start) : MemExtentsSep (e :: exts) :=
  ⟨fun x hx => (List.mem_cons.mp hx).elim (fun hx => hx ▸ he) (h.1 x), List.Pairwise.cons hlt h.2⟩

theorem MemExtentsSep.of_cons {e : MemExtent} {exts : List MemExtent}
    (h : MemExtentsSep (e :: exts)) :
    e.start ≤ e.stop ∧ (∀ e' ∈ exts, e.stop < e'.start) ∧ MemExtentsSep exts :=
  ⟨h.1 e List.mem_cons_self, (List.pairwise_cons.mp h.2).1,
    fun x hx => h.1 x (List.mem_cons_of_mem _ hx), (List.pairwise_cons.mp h.2).2⟩

/-- The merging loop keeps the extents sorted and apart, given that the extent merged into
reaches the zone's end and ends before every extent left that starts after the zone; what it
leaves is that extent, grown, and extents of the list. -/
theorem mergeFollowing_sep (ext : MemExtent) {rest : List MemExtent} (hrest : MemExtentsSep rest)
    (hlo : ext.start ≤ zoneEnd) (hhi : zoneEnd ≤ ext.stop)
    (hafter : ∀ c ∈ rest, zoneEnd < c.start → ext.stop < c.start) :
    MemExtentsSep (mergeFollowing zoneEnd ext rest) ∧
      ∀ e ∈ mergeFollowing zoneEnd ext rest, e.start = ext.start ∨ e ∈ rest := by
  induction rest generalizing ext with
  | nil =>
    refine ⟨MemExtentsSep.nil.cons (by omega) (by simp), fun e he => ?_⟩
    rw [mergeFollowing, List.mem_singleton] at he
    exact Or.inl (by rw [he])
  | cons cur rest ih =>
    obtain ⟨hcur, hcurlt, hrest'⟩ := hrest.of_cons
    unfold mergeFollowing
    split_ifs with hbreak hstop
    · -- the zone ends before `cur`: the extent stays in front of it
      refine ⟨hrest.cons (by omega) fun c hc => ?_, fun e he => ?_⟩
      · rcases List.mem_cons.mp hc with rfl | hc
        · exact hafter c List.mem_cons_self hbreak
        · exact hafter c (List.mem_cons_of_mem _ hc) (by have := hcurlt c hc; omega)
      · rcases List.mem_cons.mp he with rfl | he
        · exact Or.inl rfl
        · exact Or.inr he
    · -- `cur` is absorbed, and the extent now ends where `cur` did
      obtain ⟨hsep, hmem⟩ := ih { ext with stop := cur.stop } hrest' hlo (by dsimp only; omega)
        fun c hc _ => hcurlt c hc
      exact ⟨hsep, fun e he => (hmem e he).imp id (List.mem_cons_of_mem _)⟩
    · -- `cur` is absorbed, inside the extent
      obtain ⟨hsep, hmem⟩ := ih ext hrest' hlo hhi
        fun c hc hc' => hafter c (List.mem_cons_of_mem _ hc) hc'
      exact ⟨hsep, fun e he => (hmem e he).imp id (List.mem_cons_of_mem _)⟩

theorem addZone_sep (hz : zoneStart ≤ zoneEnd) {exts : List MemExtent} (h : MemExtentsSep exts) :
    MemExtentsSep (addZone zoneStart zoneEnd exts) ∧
      ∀ b, (∀ e ∈ exts, b < e.start) → b < zoneStart →
        ∀ e ∈ addZone zoneStart zoneEnd exts, b < e.start := by
  induction exts with
  | nil =>
    refine ⟨MemExtentsSep.nil.cons hz (by simp), fun b _ hb e he => ?_⟩
    rw [addZone, List.mem_singleton] at he
    rw [he]
    exact hb
  | cons ext rest ih =>
    obtain ⟨hext, hextlt, hrest⟩ := h.of_cons
    rw [addZone]
    by_cases hmeet : zoneStart ≤ ext.stop
    · rw [if_pos hmeet]
      by_cases hbefore : zoneEnd < ext.start
      · -- a new extent in front of `ext`
        rw [if_pos hbefore]
        refine ⟨h.cons hz fun c hc => ?_, fun b hb hbz e he => ?_⟩
        · rcases List.mem_cons.mp hc with rfl | hc
          · exact hbefore
          · show zoneEnd < c.start
            have := hextlt c hc
            omega
        · rcases List.mem_cons.mp he with rfl | he
          · exact hbz
          · exact hb e he
      · -- the zone is merged into `ext`
        rw [if_neg hbefore]
        have hlo : (if zoneStart < ext.start then zoneStart else ext.start) ≤ zoneEnd := by
          split_ifs <;> omega
        have hhi : zoneEnd ≤ (if zoneEnd > ext.stop then zoneEnd else ext.stop) := by
          split_ifs <;> omega
        have hafter : ∀ c ∈ rest, zoneEnd < c.start →
            (if zoneEnd > ext.stop then zoneEnd else ext.stop) < c.start := by
          intro c hc hc'
          have := hextlt c hc
          split_ifs <;> omega
        obtain ⟨hsep, hmem⟩ := mergeFollowing_sep ⟨_, _⟩ hrest hlo hhi hafter
        refine ⟨hsep, fun b hb hbz e he => ?_⟩
        rcases hmem e he with hs | he
        · have := hb ext List.mem_cons_self
          rw [hs]
          show b < (if zoneStart < ext.start then zoneStart else ext.start)
          split_ifs <;> omega
        · exact hb e (List.mem_cons_of_mem _ he)
    · -- the zone lies past `ext`
      rw [if_neg hmeet]
      obtain ⟨hsep, hbound⟩ := ih hrest
      refine ⟨hsep.cons hext (hbound ext.stop hextlt (by omega)), fun b hb hbz e he => ?_⟩
      rcases List.mem_cons.mp he with rfl | he
      · exact hb _ List.mem_cons_self
      · exact hbound b (fun e he => hb e (List.mem_cons_of_mem _ he)) hbz e he

/-- `create_mem_extents` gives extents sorted and apart. -/
theorem createMemExtents_sep (zones : List Zone) : MemExtentsSep (createMemExtents zones) := by
  suffices h : ∀ exts, MemExtentsSep exts → MemExtentsSep (zones.foldl
      (fun exts z => addZone z.zoneStartPfn (z.zoneStartPfn + z.spannedPages) exts) exts) from
    h [] MemExtentsSep.nil
  induction zones with
  | nil => exact fun _ h => h
  | cons z zones ih => exact fun exts h => ih _ (addZone_sep (Nat.le_add_right _ _) h).1

end Extents

/-! ### The blocks are sorted and cover the zones -/

/-- The ranges `memory_bm_create` gives the blocks of an extent lie inside it, hold at least one
pfn and at most `bits`, and each ends where the next starts, when there are no more blocks than
`DIV_ROUND_UP(pages, BM_BITS_PER_BLOCK)`. -/
theorem blockRanges_wf {bits : Nat} (hbits : 0 < bits) (n : Nat) :
    ∀ pfn pages, n * bits < pages + bits →
      (∀ r ∈ blockRanges bits n pfn pages,
        pfn ≤ r.1 ∧ r.1 < r.2 ∧ r.2 ≤ pfn + pages ∧ r.2 - r.1 ≤ bits) ∧
        (blockRanges bits n pfn pages).Pairwise fun r r' => r.2 ≤ r'.1 := by
  induction n with
  | zero => intro pfn pages _; simp [blockRanges]
  | succ n ih =>
    intro pfn pages hn
    rw [Nat.add_one_mul] at hn
    unfold blockRanges
    split_ifs with hfull
    · -- a whole block, then the blocks of what is left
      obtain ⟨hin, hsorted⟩ := ih (pfn + bits) (pages - bits) (by omega)
      refine ⟨fun r hr => ?_, List.pairwise_cons.mpr ⟨fun r hr => (hin r hr).1, hsorted⟩⟩
      rcases List.mem_cons.mp hr with rfl | hr
      · dsimp only
        omega
      · have := hin r hr
        omega
    · -- the last, partial block: no block is left after it
      have hn0 : n = 0 := by
        by_contra hne
        have := Nat.le_mul_of_pos_left bits (Nat.pos_of_ne_zero hne)
        omega
      subst hn0
      simp only [blockRanges, List.mem_singleton, forall_eq, List.pairwise_singleton, and_true]
      omega

theorem blockRanges_holds {bits : Nat} (n : Nat) :
    ∀ pfn pages, pages ≤ n * bits → n * bits < pages + bits → ∀ x,
      (∃ r ∈ blockRanges bits n pfn pages, r.1 ≤ x ∧ x < r.2) ↔ pfn ≤ x ∧ x < pfn + pages := by
  induction n with
  | zero =>
    intro pfn pages hp _ x
    simp only [blockRanges, List.not_mem_nil, false_and, exists_false, false_iff]
    omega
  | succ n ih =>
    intro pfn pages hp hn x
    rw [Nat.add_one_mul] at hp hn
    unfold blockRanges
    split_ifs with hfull
    · -- a whole block, then the blocks of what is left
      rw [List.exists_mem_cons_iff, ih (pfn + bits) (pages - bits) (by omega) (by omega) x]
      dsimp only
      omega
    · -- the last, partial block
      have hn0 : n = 0 := by
        by_contra hne
        have := Nat.le_mul_of_pos_left bits (Nat.pos_of_ne_zero hne)
        omega
      subst hn0
      simp [blockRanges]

theorem bmBitsPerBlock_pos : 0 < bmBitsPerBlock a := Nat.mul_pos a.pageSize_pos (by decide)

theorem divRoundUp_bounds (pages : Nat) :
    pages ≤ (pages + bmBitsPerBlock a - 1) / bmBitsPerBlock a * bmBitsPerBlock a ∧
      (pages + bmBitsPerBlock a - 1) / bmBitsPerBlock a * bmBitsPerBlock a <
        pages + bmBitsPerBlock a := by
  have hbits := bmBitsPerBlock_pos a
  have hdiv := Nat.div_add_mod' (pages + bmBitsPerBlock a - 1) (bmBitsPerBlock a)
  have hmod := Nat.mod_lt (pages + bmBitsPerBlock a - 1) hbits
  omega

theorem extentBlocks_wf (ext : MemExtent) :
    BlocksWf (extentBlocks a ext) ∧
      ∀ bb ∈ extentBlocks a ext, ext.start ≤ bb.startPfn ∧ bb.endPfn ≤ ext.stop := by
  obtain ⟨hin, hsorted⟩ := blockRanges_wf (bmBitsPerBlock_pos a)
    ((ext.stop - ext.start + bmBitsPerBlock a - 1) / bmBitsPerBlock a) ext.start
    (ext.stop - ext.start) (divRoundUp_bounds a _).2
  refine ⟨⟨fun bb hbb => ?_, ?_⟩, fun bb hbb => ?_⟩
  · obtain ⟨r, hr, rfl⟩ := List.mem_map.mp hbb
    have := hin r hr
    simp only [bmBlockBits, List.length_replicate, bmBitsPerBlock] at this ⊢
    omega
  · rw [extentBlocks, List.pairwise_map]
    exact hsorted
  · obtain ⟨r, hr, rfl⟩ := List.mem_map.mp hbb
    have := hin r hr
    dsimp only
    omega

theorem extentBlocks_holds (ext : MemExtent) (pfn : Nat) :
    (∃ bb ∈ extentBlocks a ext, bb.Holds pfn) ↔ ext.Holds pfn := by
  obtain ⟨hlo, hhi⟩ := divRoundUp_bounds a (ext.stop - ext.start)
  have h := blockRanges_holds ((ext.stop - ext.start + bmBitsPerBlock a - 1) / bmBitsPerBlock a)
    ext.start (ext.stop - ext.start) hlo hhi pfn
  constructor
  · rintro ⟨bb, hbb, hh⟩
    obtain ⟨r, hr, rfl⟩ := List.mem_map.mp hbb
    have := h.mp ⟨r, hr, hh⟩
    exact ⟨this.1, by omega⟩
  · intro hh
    obtain ⟨r, hr, hx⟩ := h.mpr ⟨hh.1, by have := hh.2; omega⟩
    exact ⟨_, List.mem_map.mpr ⟨r, hr, rfl⟩, hx⟩

theorem memoryBmCreate_wf (zones : List Zone) : BlocksWf (memoryBmCreate a zones) := by
  have hsep := createMemExtents_sep zones
  refine ⟨fun bb hbb => ?_, ?_⟩
  · obtain ⟨e, -, hbb⟩ := List.mem_flatMap.mp hbb
    exact (extentBlocks_wf a e).1.range bb hbb
  · rw [memoryBmCreate, List.pairwise_flatMap]
    refine ⟨fun e _ => (extentBlocks_wf a e).1.sorted, ?_⟩
    -- the blocks of an extent end before the next extent starts
    refine hsep.2.imp_of_mem fun {e e'} _ _ hlt bb hbb bb' hbb' => ?_
    have h₁ := ((extentBlocks_wf a e).2 bb hbb).2
    have h₂ := ((extentBlocks_wf a e').2 bb' hbb').1
    omega

/-- The blocks of a bitmap start at increasing pfns. -/
theorem memoryBmCreate_starts (zones : List Zone) :
    ((memoryBmCreate a zones).map BmBlock.startPfn).Pairwise (· < ·) := by
  have hwf := memoryBmCreate_wf a zones
  rw [List.pairwise_map]
  exact hwf.sorted.imp_of_mem fun {bb _} hbb _ hle => Nat.lt_of_lt_of_le (hwf.range bb hbb).1 hle

section Cover

variable {zoneStart zoneEnd : Nat}

/-- The merging loop leaves the pfns of the extent merged into and of those after it, given that
the extent starts before every extent left, and either ends at the zone's end or every extent
left starts after the zone. -/
theorem mergeFollowing_holds (ext : MemExtent) {rest : List MemExtent}
    (hrest : MemExtentsSep rest) (hhi : zoneEnd ≤ ext.stop)
    (hstart : ∀ c ∈ rest, ext.start ≤ c.start)
    (hend : ext.stop = zoneEnd ∨ ∀ c ∈ rest, zoneEnd < c.start) (pfn : Nat) :
    (∃ e ∈ mergeFollowing zoneEnd ext rest, e.Holds pfn) ↔
      ext.Holds pfn ∨ ∃ e ∈ rest, e.Holds pfn := by
  induction rest generalizing ext with
  | nil => simp [mergeFollowing]
  | cons cur rest ih =>
    obtain ⟨hcur, hcurlt, hrest'⟩ := hrest.of_cons
    have hcs := hstart cur List.mem_cons_self
    have hstart' : ∀ c ∈ rest, ext.start ≤ c.start :=
      fun c hc => hstart c (List.mem_cons_of_mem _ hc)
    unfold mergeFollowing
    split_ifs with hbreak hstop
    · exact List.exists_mem_cons_iff _ _ _
    · -- `cur` is absorbed, and the extent now ends where `cur` did
      have hext : ext.stop = zoneEnd :=
        hend.resolve_right fun h => hbreak (h cur List.mem_cons_self)
      have hiff : ({ ext with stop := cur.stop } : MemExtent).Holds pfn ↔
          ext.Holds pfn ∨ cur.Holds pfn := by
        simp only [MemExtent.Holds]
        omega
      rw [ih { ext with stop := cur.stop } hrest' (by dsimp only; omega) hstart'
        (Or.inr fun c hc => by have := hcurlt c hc; omega), List.exists_mem_cons_iff, hiff, or_assoc]
    · -- `cur` is absorbed, inside the extent
      have hext : ext.stop = zoneEnd :=
        hend.resolve_right fun h => hbreak (h cur List.mem_cons_self)
      have hsub : cur.Holds pfn → ext.Holds pfn := by
        simp only [MemExtent.Holds]
        omega
      rw [ih ext hrest' hhi hstart' (Or.inl hext), List.exists_mem_cons_iff]
      constructor
      · exact fun h => h.imp_right Or.inr
      · rintro (h | h | h)
        · exact Or.inl h
        · exact Or.inl (hsub h)
        · exact Or.inr h

theorem addZone_holds {exts : List MemExtent} (h : MemExtentsSep exts) (pfn : Nat) :
    (∃ e ∈ addZone zoneStart zoneEnd exts, e.Holds pfn) ↔
      (zoneStart ≤ pfn ∧ pfn < zoneEnd) ∨ ∃ e ∈ exts, e.Holds pfn := by
  induction exts with
  | nil => simp [addZone, MemExtent.Holds]
  | cons ext rest ih =>
    obtain ⟨hext, hextlt, hrest⟩ := h.of_cons
    rw [addZone]
    by_cases hmeet : zoneStart ≤ ext.stop
    · rw [if_pos hmeet]
      by_cases hbefore : zoneEnd < ext.start
      · -- a new extent in front of `ext`
        rw [if_pos hbefore, List.exists_mem_cons_iff]
        rfl
      · -- the zone is merged into `ext`
        rw [if_neg hbefore]
        have hhi : zoneEnd ≤ (if zoneEnd > ext.stop then zoneEnd else ext.stop) := by
          split_ifs <;> omega
        have hstart : ∀ c ∈ rest,
            (if zoneStart < ext.start then zoneStart else ext.start) ≤ c.start := by
          intro c hc
          have := hextlt c hc
          split_ifs <;> omega
        have hend : (if zoneEnd > ext.stop then zoneEnd else ext.stop) = zoneEnd ∨
            ∀ c ∈ rest, zoneEnd < c.start := by
          split_ifs with hgt
          · exact Or.inl rfl
          · exact Or.inr fun c hc => by have := hextlt c hc; omega
        have hiff : MemExtent.Holds ⟨if zoneStart < ext.start then zoneStart else ext.start,
            if zoneEnd > ext.stop then zoneEnd else ext.stop⟩ pfn ↔
            (zoneStart ≤ pfn ∧ pfn < zoneEnd) ∨ ext.Holds pfn := by
          simp only [MemExtent.Holds]
          split_ifs <;> omega
        rw [mergeFollowing_holds _ hrest hhi hstart hend, hiff, List.exists_mem_cons_iff, or_assoc]
    · -- the zone lies past `ext`
      rw [if_neg hmeet, List.exists_mem_cons_iff, List.exists_mem_cons_iff, ih hrest]
      exact or_left_comm

theorem createMemExtents_holds (zones : List Zone) (pfn : Nat) :
    (∃ e ∈ createMemExtents zones, e.Holds pfn) ↔ ∃ z ∈ zones, z.Holds pfn := by
  suffices h : ∀ exts, MemExtentsSep exts →
      ((∃ e ∈ zones.foldl (fun exts z =>
        addZone z.zoneStartPfn (z.zoneStartPfn + z.spannedPages) exts) exts, e.Holds pfn) ↔
        (∃ z ∈ zones, z.Holds pfn) ∨ ∃ e ∈ exts, e.Holds pfn) by
    have h₀ := h [] MemExtentsSep.nil
    simp only [List.not_mem_nil, false_and, exists_false, or_false] at h₀
    exact h₀
  induction zones with
  | nil => intro exts _; simp
  | cons z zones ih =>
    intro exts h
    rw [List.foldl_cons, ih _ (addZone_sep (Nat.le_add_right _ _) h).1,
      addZone_holds h, List.exists_mem_cons_iff, or_assoc]
    exact or_left_comm

end Cover

theorem memoryBmCreate_holds (zones : List Zone) (pfn : Nat) :
    (∃ bb ∈ memoryBmCreate a zones, bb.Holds pfn) ↔ ∃ z ∈ zones, z.Holds pfn := by
  rw [← createMemExtents_holds]
  constructor
  · rintro ⟨bb, hbb, hh⟩
    obtain ⟨e, he, hbb⟩ := List.mem_flatMap.mp hbb
    exact ⟨e, he, (extentBlocks_holds a e pfn).mp ⟨bb, hbb, hh⟩⟩
  · rintro ⟨e, he, hh⟩
    obtain ⟨bb, hbb, hh⟩ := (extentBlocks_holds a e pfn).mpr hh
    exact ⟨bb, List.mem_flatMap.mpr ⟨e, he, hbb⟩, hh⟩

/-! ### Reading back what was written -/

section RoundTrip

variable {a}

theorem findBlock_append {done rest : List BmBlock} {bb : BmBlock}
    (hnd : ((done ++ bb :: rest).map BmBlock.startPfn).Nodup) :
    findBlock bb.startPfn (done ++ bb :: rest) = some (done.length, bb) := by
  induction done with
  | nil => simp [findBlock]
  | cons d done ih =>
    rw [List.cons_append, List.map_cons, List.nodup_cons] at hnd
    have hne : d.startPfn ≠ bb.startPfn := fun heq => hnd.1 (by rw [heq]; simp)
    rw [List.cons_append, findBlock, if_neg hne, ih hnd.2]
    simp

theorem flatten_blockChunks (bb : BmBlock) (todo : List BmBlock) (rest : List UInt8) :
    ((bb :: todo).flatMap (blockChunks a)).flatten ++ rest =
      leBytes a.sizeofLong bb.startPfn ++ (leBytes a.sizeofLong bb.endPfn ++
        (bb.data ++ ((todo.flatMap (blockChunks a)).flatten ++ rest))) := by
  simp [blockChunks]

theorem memoryBmReadLoop_write (readError : Int) (rest : List UInt8) (todo : List BmBlock) :
    ∀ cur done : List BmBlock, todo.map BmBlock.range = cur.map BmBlock.range →
      ((done ++ todo).map BmBlock.startPfn).Nodup →
      (∀ bb ∈ todo, bb.data.length = a.pageSize ∧ bb.startPfn < 2 ^ (8 * a.sizeofLong) ∧
        bb.endPfn < 2 ^ (8 * a.sizeofLong)) →
      memoryBmReadLoop a readError todo.length (done ++ cur)
        ((todo.flatMap (blockChunks a)).flatten ++ rest) = (0, done ++ todo, rest) := by
  induction todo with
  | nil =>
    intro cur done hrange _ _
    rw [List.map_nil, eq_comm, List.map_eq_nil_iff] at hrange
    subst hrange
    simp [memoryBmReadLoop]
  | cons bb todo ih =>
    intro cur done hrange hnd hblocks
    obtain ⟨hdata, hstart, hend⟩ := hblocks bb List.mem_cons_self
    cases cur with
    | nil => simp at hrange
    | cons bb₀ cur =>
      rw [List.map_cons, List.map_cons, List.cons.injEq] at hrange
      obtain ⟨hr, hrange⟩ := hrange
      have hs : bb₀.startPfn = bb.startPfn := (congrArg Prod.fst hr).symm
      have he : bb₀.endPfn = bb.endPfn := (congrArg Prod.snd hr).symm
      -- the blocks read into have the starts of the blocks written
      have hnd₀ : ((done ++ bb₀ :: cur).map BmBlock.startPfn).Nodup := by
        have hst : cur.map BmBlock.startPfn = todo.map BmBlock.startPfn := by
          have := congrArg (List.map Prod.fst) hrange
          simpa [List.map_map, Function.comp_def, BmBlock.range] using this.symm
        simpa [hs, hst] using hnd
      have hfind := findBlock_append hnd₀
      rw [hs] at hfind
      rw [flatten_blockChunks, List.length_cons, memoryBmReadLoop,
        Extent.readChunk_append (length_leBytes _ _)]
      simp only [leValue_leBytes_of_lt hstart, hfind]
      rw [Extent.readChunk_append (length_leBytes _ _)]
      simp only [leValue_leBytes_of_lt hend, he, ne_eq, not_true_eq_false, if_false]
      rw [Extent.readChunk_append hdata]
      simp only
      -- the page goes into the block of the same place, which is then the block written
      have hbb : ({ startPfn := bb₀.startPfn, endPfn := bb.endPfn, data := bb.data } : BmBlock) =
          bb := by
        rw [hs]
      rw [List.set_append_right _ _ (Nat.le_refl _), Nat.sub_self, List.set_cons_zero, hbb,
        ← List.singleton_append, ← List.append_assoc,
        ih cur (done ++ [bb]) hrange (by simpa using hnd)
          fun x hx => hblocks x (List.mem_cons_of_mem _ hx)]
      simp

/-- A bitmap on a zone layout, whatever its pages hold, written by `memory_bm_write` and read by
`memory_bm_read` on the same layout, comes back as it was, and the read returns `0`. -/
theorem memoryBmRead_write {zones : List Zone} {bm : List BmBlock}
    (hshape : bm.map BmBlock.range = (memoryBmCreate a zones).map BmBlock.range)
    (hblocks : ∀ bb ∈ bm, bb.data.length = a.pageSize ∧ bb.startPfn < 2 ^ (8 * a.sizeofLong) ∧
      bb.endPfn < 2 ^ (8 * a.sizeofLong))
    (hcount : bm.length < 2 ^ (8 * a.sizeofInt)) (readError : Int) (rest : List UInt8) :
    memoryBmRead a zones readError ((memoryBmWrite a bm).flatten ++ rest) = (0, bm, rest) := by
  -- the blocks written start where those of the layout do, at increasing pfns
  have hnd : (bm.map BmBlock.startPfn).Nodup := by
    have hst : bm.map BmBlock.startPfn = (memoryBmCreate a zones).map BmBlock.startPfn := by
      have := congrArg (List.map Prod.fst) hshape
      simpa [List.map_map, Function.comp_def, BmBlock.range] using this
    rw [hst]
    exact (memoryBmCreate_starts a zones).imp Nat.ne_of_lt
  rw [memoryBmWrite, List.flatten_cons, List.append_assoc, memoryBmRead,
    Extent.readChunk_append (length_leBytes _ _)]
  simp only [leValue_leBytes_of_lt hcount]
  simpa using memoryBmReadLoop_write readError rest bm (memoryBmCreate a zones) [] hshape
    (by simpa using hnd) hblocks

/-- The chunks `memory_bm_write` passes are those `toi_pageflags_space_needed` counts. -/
theorem memoryBmWrite_sizes {bm : List BmBlock} (hdata : ∀ bb ∈ bm, bb.data.length = a.pageSize) :
    (memoryBmWrite a bm).map List.length =
      (Header.memoryBmWrite a bm.length).map Header.HeaderChunk.size := by
  have hblocks : (bm.flatMap (blockChunks a)).map List.length =
      (List.replicate bm.length [2 * a.sizeofLong, a.pageSize]).flatten := by
    induction bm with
    | nil => rfl
    | cons bb bm ih =>
      rw [List.flatMap_cons, List.map_append, ih fun x hx => hdata x (List.mem_cons_of_mem _ hx),
        List.length_cons, List.replicate_succ, List.flatten_cons]
      simp [blockChunks, hdata bb List.mem_cons_self, Nat.two_mul]
  simp [memoryBmWrite, Header.memoryBmWrite, hblocks, List.map_flatten, List.map_replicate]

end RoundTrip

/-- A bitmap laid over a zone layout by `memory_bm_create`, with any bits in its pages, written by
`memory_bm_write` into the header and read back by `memory_bm_read` on the same layout: the read
returns `0` with the bitmap as it was, and leaves the rest of the header; and the bytes written are
`toi_pageflags_space_needed()` for its number of blocks. -/
theorem memory_bm_round_trip (zones : List Zone) (bm : List BmBlock)
    (hshape : bm.map BmBlock.range = (memoryBmCreate a zones).map BmBlock.range)
    (hblocks : ∀ bb ∈ bm, bb.data.length = a.pageSize ∧ bb.startPfn < 2 ^ (8 * a.sizeofLong) ∧
      bb.endPfn < 2 ^ (8 * a.sizeofLong))
    (hcount : bm.length < 2 ^ (8 * a.sizeofInt)) (readError : Int) (rest : List UInt8) :
    memoryBmRead a zones readError ((memoryBmWrite a bm).flatten ++ rest) = (0, bm, rest) ∧
      (memoryBmWrite a bm).flatten.length = Header.toiPageflagsSpaceNeeded a bm.length := by
  refine ⟨memoryBmRead_write hshape hblocks hcount readError rest, ?_⟩
  rw [List.length_flatten, memoryBmWrite_sizes fun bb hbb => (hblocks bb hbb).1]
  exact Header.totalBytes_memoryBmWrite bm.length

/-- One zone of three pages on an x86-64 machine: one block, its bits all set. -/
theorem memory_bm_round_trip_one_zone :
    [(⟨0, 3, List.replicate Arch.x86_64.pageSize 255⟩ : BmBlock)].map BmBlock.range =
        (memoryBmCreate Arch.x86_64 [⟨0, 3⟩]).map BmBlock.range ∧
      memoryBmRead Arch.x86_64 [⟨0, 3⟩] (-1)
          ((memoryBmWrite Arch.x86_64 [⟨0, 3, List.replicate Arch.x86_64.pageSize 255⟩]).flatten ++
            []) =
        (0, [⟨0, 3, List.replicate Arch.x86_64.pageSize 255⟩], []) :=
  have hshape : [(⟨0, 3, List.replicate Arch.x86_64.pageSize 255⟩ : BmBlock)].map BmBlock.range =
      (memoryBmCreate Arch.x86_64 [⟨0, 3⟩]).map BmBlock.range := by decide
  ⟨hshape, (memory_bm_round_trip Arch.x86_64 [⟨0, 3⟩] _ hshape
    (fun bb hbb => by
      rw [List.mem_singleton] at hbb
      subst hbb
      exact ⟨List.length_replicate, by decide, by decide⟩) (by decide) (-1) []).1⟩

end TuxOnIceFastboot.Snapshot
