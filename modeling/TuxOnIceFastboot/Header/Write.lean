import TuxOnIceFastboot.Header.Reserve
import TuxOnIceFastboot.Extent.Serialise

/-!
# What `write_image_header` reports

`Header.Reserve` counts what `_toi_rw_header_chunk` passes on. Here each call also returns a
value: a chunk that takes its owner past `header_requested` returns its size, unwritten, and any
other returns what `toi_rw_buffer` returns. Some callers test it and stop at the first chunk that
fails (`if (ret) return ret;`): the allocators' first chunks in `write_header_init`,
`toi_serialise_extent_chain` and `memory_bm_write`. The others drop it: the allocators drop the
results of `toi_serialise_extent_chain`, `write_image_header` those of the `struct toi_header`
chunk and of `memory_bm_write`, and `write_module_configs` those of all its chunks.

So `write_image_header` returns `0` exactly when the allocator's `write_header_init` and
`write_header_cleanup` return `0`, its pages are obtained and `TOI_ABORTED` is clear
(`writeImageHeaderResult_ret_eq_zero_iff`), and the allocator writes the image's signature
whenever its `write_header_cleanup` succeeds, on the paths that return `-1` too
(`writeImageHeaderResult_signed`). A module whose configuration passes its request has a chunk
refused, and the header is still reported written and is signed
(`write_image_header_ignores_refused_config`). When the header fits its requests and every
write succeeds, the counts are those of `Header.Reserve` (`writeImageHeaderResult_of_fits`).

`toi_rw_buffer` fails only when a page is full and the next cannot be queued, which depends on
the block I/O state and on free memory: its result is a parameter here, as are those of the
allocations, of the flush and of the signature write.
-/

namespace TuxOnIceFastboot.Header

open TuxOnIceFastboot.Lib TuxOnIceFastboot.Extent

/-- What the calls around the header's chunks return: `toi_rw_buffer` for `size` bytes after
`written` bytes of the header (`rwBuffer written size`); whether `write_image_header` gets its
header page and `fill_toi_header` succeeds, and whether `write_module_configs` gets its buffer;
`write_header_chunk_finish()`; the write of the signature (`write_modified_signature
(IMAGE_SIGNATURE)` for swap, the `bdev_page_io` read and write of the signature page for a file);
the file allocator's last `finish_all_io()`; and whether `TOI_ABORTED` is set once the header is
written. -/
structure HeaderIo where
  rwBuffer : Nat → Nat → Int
  headerPage : Bool
  configBuffer : Bool
  chunkFinish : Int
  signature : Int
  finishAllIo : Int
  aborted : Bool

/-- What `write_image_header` leaves: its return value, whether the signature page holds the
image's signature, and the counts of `_toi_rw_header_chunk`. -/
structure HeaderWriteOutcome where
  ret : Int
  signed : Bool
  counts : ChunkCounts

/-- The counts `write_image_header` starts from: `toi_initialise_modules` sets every
`header_used` to `0`. -/
def ChunkCounts.initial : ChunkCounts := ⟨fun _ => 0, 0, false⟩

section Writer

variable (requested : Nat → Nat) (rwBuffer : Nat → Nat → Int)

/-- `_toi_rw_header_chunk(WRITE, owner, buffer, size, 0)`: its return value and the counts after
it. -/
def rwHeaderChunk (c : ChunkCounts) (chunk : HeaderChunk) : Int × ChunkCounts :=
  let ret : Int :=
    match chunk.owner with
    | some i =>
      -- the refused chunk's `return buffer_size;`
      if c.headerUsed i + chunk.size > requested i then chunk.size
      else rwBuffer c.written chunk.size
    | none => rwBuffer c.written chunk.size
  (ret, toiRwHeaderChunk requested c chunk)

/-- Chunks written one after the other by a caller that stops at the first non-zero result and
returns it. -/
def rwHeaderChunksChecked : List HeaderChunk → ChunkCounts → Int × ChunkCounts
  | [], c => (0, c)
  | chunk :: cs, c =>
    let r := rwHeaderChunk requested rwBuffer c chunk
    if r.1 ≠ 0 then r else rwHeaderChunksChecked cs r.2

/-- Chunks written one after the other by a caller that drops their results. -/
def rwHeaderChunksDropped (cs : List HeaderChunk) (c : ChunkCounts) : ChunkCounts :=
  cs.foldl (fun c chunk => (rwHeaderChunk requested rwBuffer c chunk).2) c

end Writer

section Allocators

variable (a : Arch) (sz : Sizeof) (requested : Nat → Nat) (rwBuffer : Nat → Nat → Int)

/-- `toi_serialise_extent_chain(owner, chain)`: its chunks up to the first that fails, then `1`
when the list does not hold `num_extents` extents. -/
def serialiseExtentChainResult (owner : Option Nat) (ch : HibernateExtentChain)
    (c : ChunkCounts) : Int × ChunkCounts :=
  let r := rwHeaderChunksChecked requested rwBuffer (toiSerialiseExtentChain a owner ch) c
  (if r.1 ≠ 0 then r.1 else (Extent.toiSerialiseExtentChain a ch).2, r.2)

/-- `toi_swap_write_header_init()` and `toi_file_write_header_init()`, for the allocator at
place `owner` of `toi_modules`. -/
def ActiveAllocator.writeHeaderInitResult (owner : Nat) :
    ActiveAllocator → ChunkCounts → Int × ChunkCounts
  | .swap blockChain, c =>
    let r := rwHeaderChunksChecked requested rwBuffer
      [⟨some owner, sz.sigData⟩, ⟨some owner, sz.toiWriterPosnSave⟩,
        ⟨some owner, blockChain.length * sz.toiBdevInfo⟩] c
    if r.1 ≠ 0 then r
    -- one `toi_serialise_extent_chain` per swap file, its result dropped
    else (0, blockChain.foldl
      (fun c ch => (serialiseExtentChainResult a requested rwBuffer (some owner) ch c).2) r.2)
  | .file _ blockChain, c =>
    let r := rwHeaderChunksChecked requested rwBuffer
      [⟨some owner, sz.toiWriterPosnSave⟩, ⟨some owner, sz.toiBdevInfo⟩] c
    if r.1 ≠ 0 then r
    else (0, (serialiseExtentChainResult a requested rwBuffer (some owner) blockChain r.2).2)

/-- `toi_swap_write_header_cleanup()` and `toi_file_write_header_cleanup()`: the return value,
and whether the signature page now holds the image's signature. -/
def ActiveAllocator.writeHeaderCleanup (io : HeaderIo) : ActiveAllocator → Int × Bool
  | .swap _ =>
    if io.chunkFinish ≠ 0 then (io.chunkFinish, false) else (io.signature, io.signature == 0)
  | .file _ _ =>
    let result := if io.chunkFinish ≠ 0 then io.chunkFinish else io.signature
    (if result ≠ 0 then result else io.finishAllIo, io.chunkFinish == 0 && io.signature == 0)

end Allocators

section Write

variable (a : Arch) (sz : Sizeof)

/-- `toiActiveAllocator->write_header_init()` as `write_image_header` calls it. -/
def headerInit (io : HeaderIo) (st : HeaderState) : Int × ChunkCounts :=
  st.allocator.writeHeaderInitResult a sz (headerRequested a sz st) io.rwBuffer st.active
    ChunkCounts.initial

/-- `write_image_header()`. -/
def writeImageHeaderResult (io : HeaderIo) (st : HeaderState) : HeaderWriteOutcome :=
  let requested := headerRequested a sz st
  let cleanup := st.allocator.writeHeaderCleanup io
  -- `write_image_header_abort`: the allocator's cleanup runs, and signs, before `-1`
  let abort : ChunkCounts → HeaderWriteOutcome := fun c => ⟨-1, cleanup.2, c⟩
  let init := headerInit a sz io st
  if init.1 ≠ 0 then abort init.2
  else if !io.headerPage then abort init.2
  else
    -- the result of the `struct toi_header` chunk is dropped
    let c := (rwHeaderChunk requested io.rwBuffer init.2 ⟨none, sz.toiHeader⟩).2
    -- `write_module_configs` returns `-ENOMEM` without a buffer, `0` otherwise
    if !io.configBuffer then abort c
    else
      let c := rwHeaderChunksDropped requested io.rwBuffer (writeModuleConfigs a sz st) c
      -- the result of `memory_bm_write` is dropped
      let c := (rwHeaderChunksChecked requested io.rwBuffer
        (memoryBmWrite a st.pageset1Blocks) c).2
      if cleanup.1 ≠ 0 then ⟨-1, cleanup.2, c⟩
      else if io.aborted then ⟨-1, cleanup.2, c⟩
      else ⟨0, cleanup.2, c⟩

end Write

/-! ### The counts of the writer -/

section Counts

variable {requested : Nat → Nat} {rwBuffer : Nat → Nat → Int}

@[simp] theorem rwHeaderChunk_snd (c : ChunkCounts) (chunk : HeaderChunk) :
    (rwHeaderChunk requested rwBuffer c chunk).2 = toiRwHeaderChunk requested c chunk := rfl

theorem rwHeaderChunksDropped_eq (cs : List HeaderChunk) (c : ChunkCounts) :
    rwHeaderChunksDropped requested rwBuffer cs c = cs.foldl (toiRwHeaderChunk requested) c := rfl

theorem toiRwHeaderChunk_headerUsed (c : ChunkCounts) (chunk : HeaderChunk) (j : Nat) :
    (toiRwHeaderChunk requested c chunk).headerUsed j =
      c.headerUsed j + if chunk.owner = some j then chunk.size else 0 := by
  obtain ⟨o, n⟩ := chunk
  cases o with
  | none => simp [toiRwHeaderChunk]
  | some i =>
    by_cases hij : j = i
    · subst hij
      simp only [toiRwHeaderChunk]
      split_ifs <;> simp
    · -- neither branch touches `header_used j`, and the chunk is not `j`'s
      simp only [toiRwHeaderChunk]
      split_ifs <;> simp_all

theorem foldl_toiRwHeaderChunk_headerUsed (j : Nat) :
    ∀ (cs : List HeaderChunk) (c : ChunkCounts),
      (cs.foldl (toiRwHeaderChunk requested) c).headerUsed j =
        c.headerUsed j + chunkBytes (some j) cs
  | [], _ => rfl
  | chunk :: cs, c => by
    rw [List.foldl_cons, foldl_toiRwHeaderChunk_headerUsed j cs, toiRwHeaderChunk_headerUsed,
      chunkBytes_cons, Nat.add_assoc]

theorem toiRwHeaderChunk_overUsed_of {c : ChunkCounts} (h : c.overUsed = true)
    (chunk : HeaderChunk) : (toiRwHeaderChunk requested c chunk).overUsed = true := by
  obtain ⟨o, n⟩ := chunk
  cases o with
  | none => exact h
  | some i =>
    simp only [toiRwHeaderChunk]
    split_ifs <;> simp [h]

theorem foldl_toiRwHeaderChunk_overUsed_of :
    ∀ (cs : List HeaderChunk) {c : ChunkCounts}, c.overUsed = true →
      (cs.foldl (toiRwHeaderChunk requested) c).overUsed = true
  | [], _, h => h
  | chunk :: cs, _, h =>
    foldl_toiRwHeaderChunk_overUsed_of cs (toiRwHeaderChunk_overUsed_of h chunk)

theorem foldl_toiRwHeaderChunk_overUsed {j : Nat} :
    ∀ (cs : List HeaderChunk) (c : ChunkCounts), c.headerUsed j ≤ requested j →
      requested j < c.headerUsed j + chunkBytes (some j) cs →
      (cs.foldl (toiRwHeaderChunk requested) c).overUsed = true
  | [], c, _, hpast => by
    rw [chunkBytes_nil] at hpast
    omega
  | chunk :: cs, c, hle, hpast => by
    rw [List.foldl_cons]
    by_cases hover : chunk.owner = some j ∧ c.headerUsed j + chunk.size > requested j
    · -- this chunk is the one refused
      apply foldl_toiRwHeaderChunk_overUsed_of
      obtain ⟨o, n⟩ := chunk
      obtain ⟨rfl, hgt⟩ := hover
      simp [toiRwHeaderChunk, hgt]
    · -- module `j` is still within its request after this chunk
      have hle' : (toiRwHeaderChunk requested c chunk).headerUsed j ≤ requested j := by
        rw [toiRwHeaderChunk_headerUsed]
        split_ifs with hown
        · exact Nat.le_of_not_lt fun hgt => hover ⟨hown, hgt⟩
        · simpa using hle
      refine foldl_toiRwHeaderChunk_overUsed cs _ hle' ?_
      rw [toiRwHeaderChunk_headerUsed]
      rw [chunkBytes_cons] at hpast
      split_ifs at hpast ⊢ <;> omega

/-- The chunks `cs` keep every module within its request, from the counts `c` on. -/
def ChunksFit (requested : Nat → Nat) (c : ChunkCounts) (cs : List HeaderChunk) : Prop :=
  ∀ i, c.headerUsed i + chunkBytes (some i) cs ≤ requested i

theorem ChunksFit.append_left {c : ChunkCounts} {cs ds : List HeaderChunk}
    (h : ChunksFit requested c (cs ++ ds)) : ChunksFit requested c cs := by
  intro i
  have := h i
  rw [chunkBytes_append] at this
  omega

theorem ChunksFit.append_right {c : ChunkCounts} {cs ds : List HeaderChunk}
    (h : ChunksFit requested c (cs ++ ds)) :
    ChunksFit requested (cs.foldl (toiRwHeaderChunk requested) c) ds := by
  intro i
  have := h i
  rw [chunkBytes_append] at this
  rw [foldl_toiRwHeaderChunk_headerUsed]
  omega

end Counts

/-! ### Checked writes -/

section Checked

variable {requested : Nat → Nat} {rwBuffer : Nat → Nat → Int}

theorem rwHeaderChunksChecked_snd :
    ∀ (cs : List HeaderChunk) (c : ChunkCounts), ∃ pre, pre <+: cs ∧
      (rwHeaderChunksChecked requested rwBuffer cs c).2 =
        pre.foldl (toiRwHeaderChunk requested) c
  | [], _ => ⟨[], List.nil_prefix, rfl⟩
  | chunk :: cs, c => by
    dsimp only [rwHeaderChunksChecked]
    split_ifs
    · exact ⟨[chunk], (List.prefix_cons_inj chunk).mpr List.nil_prefix, rfl⟩
    · obtain ⟨pre, hpre, h⟩ := rwHeaderChunksChecked_snd cs (rwHeaderChunk requested rwBuffer c chunk).2
      exact ⟨chunk :: pre, (List.prefix_cons_inj chunk).mpr hpre, h⟩

theorem rwHeaderChunksChecked_overUsed_of (cs : List HeaderChunk) {c : ChunkCounts}
    (h : c.overUsed = true) : (rwHeaderChunksChecked requested rwBuffer cs c).2.overUsed = true := by
  obtain ⟨pre, -, hpre⟩ := @rwHeaderChunksChecked_snd requested rwBuffer cs c
  rw [hpre]
  exact foldl_toiRwHeaderChunk_overUsed_of pre h

theorem rwHeaderChunksChecked_headerUsed {o : Option Nat} {cs : List HeaderChunk}
    (hcs : ∀ chunk ∈ cs, chunk.owner = o) {j : Nat} (hj : o ≠ some j) (c : ChunkCounts) :
    (rwHeaderChunksChecked requested rwBuffer cs c).2.headerUsed j = c.headerUsed j := by
  obtain ⟨pre, hpre, h⟩ := @rwHeaderChunksChecked_snd requested rwBuffer cs c
  rw [h, foldl_toiRwHeaderChunk_headerUsed,
    chunkBytes_of_owner (fun chunk hc => hcs chunk (hpre.subset hc)), if_neg hj, Nat.add_zero]

theorem rwHeaderChunk_fst_of_fit (hbuf : ∀ w n, rwBuffer w n = 0) {c : ChunkCounts}
    {chunk : HeaderChunk} (h : ChunksFit requested c [chunk]) :
    (rwHeaderChunk requested rwBuffer c chunk).1 = 0 := by
  obtain ⟨o, n⟩ := chunk
  cases o with
  | none => simp [rwHeaderChunk, hbuf]
  | some i =>
    have hi := h i
    simp only [chunkBytes_cons, chunkBytes_nil, ↓reduceIte, Nat.add_zero] at hi
    simp [rwHeaderChunk, hbuf, Nat.not_lt.mpr hi]

theorem rwHeaderChunksChecked_of_fit (hbuf : ∀ w n, rwBuffer w n = 0) :
    ∀ (cs : List HeaderChunk) (c : ChunkCounts), ChunksFit requested c cs →
      rwHeaderChunksChecked requested rwBuffer cs c = (0, cs.foldl (toiRwHeaderChunk requested) c)
  | [], _, _ => rfl
  | chunk :: cs, c, h => by
    have hfit : ChunksFit requested c ([chunk] ++ cs) := h
    dsimp only [rwHeaderChunksChecked]
    rw [if_neg (not_not_intro (rwHeaderChunk_fst_of_fit hbuf hfit.append_left)), rwHeaderChunk_snd]
    exact rwHeaderChunksChecked_of_fit hbuf cs _ hfit.append_right

end Checked

/-! ### The allocators' `write_header_init` -/

section Init

variable {a : Arch} {sz : Sizeof} {requested : Nat → Nat} {rwBuffer : Nat → Nat → Int}

theorem foldl_serialiseExtentChainResult_headerUsed {owner j : Nat} (hj : owner ≠ j) :
    ∀ (chs : List HibernateExtentChain) (c : ChunkCounts),
      (chs.foldl (fun c ch => (serialiseExtentChainResult a requested rwBuffer (some owner) ch c).2)
        c).headerUsed j = c.headerUsed j
  | [], _ => rfl
  | ch :: chs, c => by
    rw [List.foldl_cons, foldl_serialiseExtentChainResult_headerUsed hj chs]
    exact rwHeaderChunksChecked_headerUsed toiSerialiseExtentChain_owner
      (fun h => hj (Option.some_inj.mp h)) c

theorem writeHeaderInitResult_headerUsed {owner j : Nat} (hj : owner ≠ j)
    (alloc : ActiveAllocator) (c : ChunkCounts) :
    (alloc.writeHeaderInitResult a sz requested rwBuffer owner c).2.headerUsed j = c.headerUsed j := by
  have hown : some owner ≠ some j := fun h => hj (Option.some_inj.mp h)
  cases alloc with
  | swap blockChain =>
    dsimp only [ActiveAllocator.writeHeaderInitResult]
    split_ifs
    · exact rwHeaderChunksChecked_headerUsed (by simp) hown c
    · rw [foldl_serialiseExtentChainResult_headerUsed hj]
      exact rwHeaderChunksChecked_headerUsed (by simp) hown c
  | file _ blockChain =>
    dsimp only [ActiveAllocator.writeHeaderInitResult]
    split_ifs
    · exact rwHeaderChunksChecked_headerUsed (by simp) hown c
    · dsimp only [serialiseExtentChainResult]
      rw [rwHeaderChunksChecked_headerUsed toiSerialiseExtentChain_owner hown]
      exact rwHeaderChunksChecked_headerUsed (by simp) hown c

theorem foldl_serialiseExtentChainResult_of_fit (hbuf : ∀ w n, rwBuffer w n = 0) (owner : Option Nat) :
    ∀ (chs : List HibernateExtentChain) (c : ChunkCounts),
      ChunksFit requested c (chs.flatMap (toiSerialiseExtentChain a owner)) →
      chs.foldl (fun c ch => (serialiseExtentChainResult a requested rwBuffer owner ch c).2) c =
        (chs.flatMap (toiSerialiseExtentChain a owner)).foldl (toiRwHeaderChunk requested) c
  | [], _, _ => rfl
  | ch :: chs, c, h => by
    rw [List.flatMap_cons] at h
    rw [List.foldl_cons, List.flatMap_cons, List.foldl_append]
    dsimp only [serialiseExtentChainResult]
    rw [rwHeaderChunksChecked_of_fit hbuf _ _ h.append_left]
    exact foldl_serialiseExtentChainResult_of_fit hbuf owner chs _ h.append_right

theorem writeHeaderInitResult_of_fit (hbuf : ∀ w n, rwBuffer w n = 0) (owner : Nat)
    (alloc : ActiveAllocator) (c : ChunkCounts)
    (h : ChunksFit requested c (alloc.writeHeaderInit a sz owner)) :
    alloc.writeHeaderInitResult a sz requested rwBuffer owner c =
      (0, (alloc.writeHeaderInit a sz owner).foldl (toiRwHeaderChunk requested) c) := by
  cases alloc with
  | swap blockChain =>
    dsimp only [ActiveAllocator.writeHeaderInit] at h
    dsimp only [ActiveAllocator.writeHeaderInitResult, ActiveAllocator.writeHeaderInit]
    rw [rwHeaderChunksChecked_of_fit hbuf _ _ h.append_left, if_neg (not_not_intro rfl),
      foldl_serialiseExtentChainResult_of_fit hbuf _ _ _ h.append_right, List.foldl_append]
  | file _ blockChain =>
    dsimp only [ActiveAllocator.writeHeaderInit] at h
    dsimp only [ActiveAllocator.writeHeaderInitResult, ActiveAllocator.writeHeaderInit,
      serialiseExtentChainResult]
    rw [rwHeaderChunksChecked_of_fit hbuf _ _ h.append_left, if_neg (not_not_intro rfl),
      rwHeaderChunksChecked_of_fit hbuf _ _ h.append_right, List.foldl_append]

end Init

/-! ### `write_image_header` -/

section Result

variable {a : Arch} {sz : Sizeof} {io : HeaderIo} {st : HeaderState}

/-- `write_image_header` returns `0` exactly when the allocator's `write_header_init` and
`write_header_cleanup` return `0`, its pages are obtained and `TOI_ABORTED` is clear: no other
chunk's result is read. -/
theorem writeImageHeaderResult_ret_eq_zero_iff :
    (writeImageHeaderResult a sz io st).ret = 0 ↔
      (headerInit a sz io st).1 = 0 ∧ io.headerPage = true ∧ io.configBuffer = true ∧
        (st.allocator.writeHeaderCleanup io).1 = 0 ∧ io.aborted = false := by
  unfold writeImageHeaderResult
  dsimp only
  split_ifs <;> simp_all

/-- The signature is what `write_header_cleanup` leaves, whatever `write_image_header` returns. -/
theorem writeImageHeaderResult_signed :
    (writeImageHeaderResult a sz io st).signed = (st.allocator.writeHeaderCleanup io).2 := by
  unfold writeImageHeaderResult
  dsimp only
  split_ifs <;> rfl

theorem writeHeaderCleanup_signed {alloc : ActiveAllocator}
    (h : (alloc.writeHeaderCleanup io).1 = 0) : (alloc.writeHeaderCleanup io).2 = true := by
  cases alloc with
  | swap _ =>
    unfold ActiveAllocator.writeHeaderCleanup at h ⊢
    split_ifs at h ⊢ <;> simp_all
  | file _ _ =>
    -- the flush and the signature both returned `0`, or `result` would be theirs
    unfold ActiveAllocator.writeHeaderCleanup at h ⊢
    by_cases hf : io.chunkFinish = 0 <;> by_cases hs : io.signature = 0 <;> simp_all

/-- The counts once the header is written through to the bitmap: those of the allocator's
chunks, of the `struct toi_header`, of every configuration chunk, and of the bitmap's chunks up to
the first that fails. -/
theorem writeImageHeaderResult_counts (hinit : (headerInit a sz io st).1 = 0)
    (hpage : io.headerPage = true) (hconf : io.configBuffer = true) :
    (writeImageHeaderResult a sz io st).counts =
      (rwHeaderChunksChecked (headerRequested a sz st) io.rwBuffer (memoryBmWrite a st.pageset1Blocks)
        ((writeModuleConfigs a sz st).foldl (toiRwHeaderChunk (headerRequested a sz st))
          (toiRwHeaderChunk (headerRequested a sz st) (headerInit a sz io st).2
            ⟨none, sz.toiHeader⟩))).2 := by
  unfold writeImageHeaderResult
  simp only [hinit, hpage, hconf, ne_eq, not_true_eq_false, Bool.not_true, Bool.false_eq_true,
    if_false, rwHeaderChunk_snd, rwHeaderChunksDropped_eq]
  split_ifs <;> rfl

theorem headerUsed_before_configs {i : Nat} (hi : i ≠ st.active) :
    (toiRwHeaderChunk (headerRequested a sz st) (headerInit a sz io st).2
      ⟨none, sz.toiHeader⟩).headerUsed i = 0 := by
  rw [toiRwHeaderChunk_headerUsed, headerInit, writeHeaderInitResult_headerUsed (Ne.symm hi)]
  simp [ChunkCounts.initial]

/-- A header write that fails at no checked step returns `0` and signs the image even when a
module other than the active allocator writes more configuration than its `header_requested`:
`_toi_rw_header_chunk` refuses the chunk that passes the request, and `write_module_configs`
drops its result. -/
theorem write_image_header_ignores_refused_config (a : Arch) (sz : Sizeof) (io : HeaderIo)
    (st : HeaderState) (hinit : (headerInit a sz io st).1 = 0) (hpage : io.headerPage = true)
    (hconf : io.configBuffer = true) (hclean : (st.allocator.writeHeaderCleanup io).1 = 0)
    (habort : io.aborted = false) (i : Nat) (hi : i ≠ st.active)
    (hover : headerRequested a sz st i < chunkBytes (some i) (writeModuleConfigs a sz st)) :
    (writeImageHeaderResult a sz io st).counts.overUsed = true ∧
      (writeImageHeaderResult a sz io st).ret = 0 ∧
      (writeImageHeaderResult a sz io st).signed = true := by
  have hused := @headerUsed_before_configs a sz io st i hi
  refine ⟨?_, writeImageHeaderResult_ret_eq_zero_iff.mpr ⟨hinit, hpage, hconf, hclean, habort⟩, ?_⟩
  · -- the refusal happens among the configuration chunks, and the bitmap's keep it
    rw [writeImageHeaderResult_counts hinit hpage hconf]
    apply rwHeaderChunksChecked_overUsed_of
    apply foldl_toiRwHeaderChunk_overUsed _ _ (by rw [hused]; exact Nat.zero_le _)
    rw [hused, Nat.zero_add]
    exact hover
  · rw [writeImageHeaderResult_signed]
    exact writeHeaderCleanup_signed hclean

/-- A module registered before the swap allocator whose `save_config_info` returns 8 bytes where
its `storage_needed()` asked for 4, and a swap allocator with one empty chain. -/
def configOverRequest : HeaderState :=
  ⟨[⟨.miscModule, true, some 4, some 8⟩], .swap [HibernateExtentChain.empty], [], 1⟩

/-- Every call around the header succeeds. -/
def allHeaderCallsSucceed : HeaderIo := ⟨fun _ _ => 0, true, true, 0, 0, 0, false⟩

theorem write_image_header_ignores_refused_config_misc_module :
    headerRequested .x86_64 sizeofX86_64 configOverRequest 0 <
        chunkBytes (some 0) (writeModuleConfigs .x86_64 sizeofX86_64 configOverRequest) ∧
      (writeImageHeaderResult .x86_64 sizeofX86_64 allHeaderCallsSucceed configOverRequest).counts.overUsed = true ∧
      (writeImageHeaderResult .x86_64 sizeofX86_64 allHeaderCallsSucceed configOverRequest).ret = 0 ∧
      (writeImageHeaderResult .x86_64 sizeofX86_64 allHeaderCallsSucceed configOverRequest).signed = true :=
  ⟨by decide, write_image_header_ignores_refused_config .x86_64 sizeofX86_64 allHeaderCallsSucceed
    configOverRequest (by decide) rfl rfl (by decide) rfl 0 (by decide) (by decide)⟩

/-- When the header fits its requests and every call succeeds, `write_image_header` returns `0`,
signs the image, and leaves the counts of `writeImageHeader`. -/
theorem writeImageHeaderResult_of_fits (h : st.Fits) (hbuf : ∀ w n, io.rwBuffer w n = 0)
    (hpage : io.headerPage = true) (hconf : io.configBuffer = true)
    (hclean : (st.allocator.writeHeaderCleanup io).1 = 0) (habort : io.aborted = false) :
    writeImageHeaderResult a sz io st = ⟨0, true, writeImageHeader a sz st⟩ := by
  have hfit : ChunksFit (headerRequested a sz st) ChunkCounts.initial
      (writeImageHeaderChunks a sz st) := fun i => by
    simpa [ChunkCounts.initial] using chunkBytes_writeImageHeaderChunks_le h i
  have hinit : headerInit a sz io st = (0, (st.allocator.writeHeaderInit a sz st.active).foldl
      (toiRwHeaderChunk (headerRequested a sz st)) ChunkCounts.initial) :=
    writeHeaderInitResult_of_fit hbuf _ _ _ hfit.append_left.append_left.append_left
  -- the bitmap's chunks fit after all the others
  have hbm := rwHeaderChunksChecked_of_fit hbuf (memoryBmWrite a st.pageset1Blocks) _
    hfit.append_right
  simp only [List.foldl_append, List.foldl_cons, List.foldl_nil] at hbm
  have hcounts := @writeImageHeaderResult_counts a sz io st (by rw [hinit]) hpage hconf
  rw [hinit] at hcounts
  dsimp only at hcounts
  rw [hbm] at hcounts
  have hret := (@writeImageHeaderResult_ret_eq_zero_iff a sz io st).mpr
    ⟨by rw [hinit], hpage, hconf, hclean, habort⟩
  have hsigned : (writeImageHeaderResult a sz io st).signed = true := by
    rw [writeImageHeaderResult_signed]
    exact writeHeaderCleanup_signed hclean
  -- every chunk of the header, in the order of `writeImageHeaderChunks`
  have hcounts' : (writeImageHeaderResult a sz io st).counts = writeImageHeader a sz st := by
    rw [hcounts, writeImageHeader, writeImageHeaderChunks]
    simp only [List.foldl_append, List.foldl_cons, List.foldl_nil]
    rfl
  generalize writeImageHeaderResult a sz io st = o at hret hsigned hcounts'
  obtain ⟨r, s, c⟩ := o
  dsimp only at hret hsigned hcounts'
  subst hret hsigned hcounts'
  rfl

end Result

end TuxOnIceFastboot.Header
