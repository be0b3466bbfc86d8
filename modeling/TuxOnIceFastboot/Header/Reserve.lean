import TuxOnIceFastboot.BlockIO.Layout
import TuxOnIceFastboot.BlockIO.Buffer
import TuxOnIceFastboot.Lib.Indexed

/-!
# The header reservation (`get_header_storage_needed`, `write_image_header`)

`update_image` reserves `header_storage_needed` pages for the header before allocating storage,
and repeats while the header needed afterwards, `get_header_storage_needed()`, is larger than
the reservation it was computed under. The need is the `DIV_ROUND_UP` of three byte counts:
`sizeof(struct toi_header)`, what `toi_header_storage_for_modules` sums over the modules (each
module's `storage_needed()`, its `struct toi_module_header` and the length, and the terminator)
and `toi_pageflags_space_needed()`. The module count also sets each module's
`header_requested`.

`write_image_header` passes the header to `rw_header_chunk` one chunk at a time: the active
allocator's `write_header_init` data, the `struct toi_header`, the module configurations of
`write_module_configs` and `memory_bm_write(pageset1_map)`. `_toi_rw_header_chunk` adds each
chunk to its owner's `header_used` and refuses it, without writing it, once that passes
`header_requested`.

The swap and file allocators' `storage_needed` count exactly what their `write_header_init`
and `save_config_info` write, with the chains as they are (`writeHeaderInit_add_saveConfigInfo`).
So when the other modules save no more than their `storage_needed()` and nothing the count reads
has changed since the last `get_header_storage_needed()`, no chunk is refused and the header
fits the reservation the loop ends with; its pages are then written on the tape pages the
reservation holds (`header_reservation_covers_header`).

The struct sizes are parameters (`Sizeof`); `int` and `unsigned long` are the machine's. The
byte counts are `Nat`s: no module returns a negative size, and the `int` sums do not overflow
at these sizes. The allocations of the configuration buffer and of the header page, which only
abort the write, are left out, and so is the block I/O setup of `write_header_init`.
-/

namespace TuxOnIceFastboot.Header

open TuxOnIceFastboot.Lib TuxOnIceFastboot.Extent TuxOnIceFastboot.BlockIO

/-- The module types of `tuxonice_modules.h`. -/
inductive ModuleType
  | filterModule
  | writerModule
  | miscModule
  | miscHiddenModule
  deriving DecidableEq, Repr

/-- The fields of `struct toi_module_ops` the header reads: what `storage_needed()` and
`save_config_info(buffer)` return (`none` where the module has no such callback). -/
structure ToiModuleOps where
  moduleType : ModuleType
  enabled : Bool
  storageNeeded : Option Nat
  saveConfigInfo : Option Nat
  deriving DecidableEq, Repr

/-- `sizeof` of the structs written in the header. -/
structure Sizeof where
  toiHeader : Nat
  toiModuleHeader : Nat
  sigData : Nat
  toiWriterPosnSave : Nat
  toiBdevInfo : Nat
  deriving DecidableEq, Repr

/-- The active allocator and the state its header callbacks read: the swap allocator with
`block_chain[0..MAX_SWAPFILES)`, or the file allocator with `strlen(toi_file_target)` and its
`block_chain`. -/
inductive ActiveAllocator
  | swap (blockChain : List HibernateExtentChain)
  | file (toiFileTargetLength : Nat) (blockChain : HibernateExtentChain)
  deriving DecidableEq, Repr

/-- A call `rw_header_chunk(WRITE, owner, buffer, size)`; the owner is the module's place in
`toi_modules`, `none` for `NULL`. -/
structure HeaderChunk where
  owner : Option Nat
  size : Nat
  deriving DecidableEq, Repr

/-- The bytes of the chunks of owner `o`. -/
def chunkBytes (o : Option Nat) (cs : List HeaderChunk) : Nat :=
  ((cs.filter fun c => c.owner = o).map HeaderChunk.size).sum

/-- The bytes of all the chunks. -/
def totalBytes (cs : List HeaderChunk) : Nat := (cs.map HeaderChunk.size).sum

section Allocators

variable (a : Arch) (sz : Sizeof)

/-- `toi_serialise_extent_chain(owner, chain)`: `size` and `num_extents`, then each extent of
the list. The check of the count against `num_extents` only sets the return value, which the
allocators ignore. -/
def toiSerialiseExtentChain (owner : Option Nat) (ch : HibernateExtentChain) :
    List HeaderChunk :=
  ⟨owner, 2 * a.sizeofInt⟩ :: ch.extents.map fun _ => ⟨owner, 2 * a.sizeofLong⟩

/-- The chunks of `toi_swap_write_header_init` and `toi_file_write_header_init`, owned by the
allocator, module `owner` of `toi_modules`. -/
def ActiveAllocator.writeHeaderInit (owner : Nat) : ActiveAllocator → List HeaderChunk
  | .swap blockChain =>
    [⟨some owner, sz.sigData⟩, ⟨some owner, sz.toiWriterPosnSave⟩,
      ⟨some owner, blockChain.length * sz.toiBdevInfo⟩] ++
      blockChain.flatMap (toiSerialiseExtentChain a (some owner))
  | .file _ blockChain =>
    [⟨some owner, sz.toiWriterPosnSave⟩, ⟨some owner, sz.toiBdevInfo⟩] ++
      toiSerialiseExtentChain a (some owner) blockChain

/-- `toi_swap_storage_needed` and `toi_file_storage_needed`. -/
def ActiveAllocator.storageNeeded : ActiveAllocator → Nat
  | .swap blockChain =>
    sz.sigData + sz.toiWriterPosnSave + blockChain.length * sz.toiBdevInfo +
      (blockChain.map fun ch => 2 * a.sizeofInt + 2 * a.sizeofLong * ch.numExtents.toNat).sum
  | .file toiFileTargetLength blockChain =>
    toiFileTargetLength + 1 + sz.toiWriterPosnSave + sz.toiBdevInfo + 2 * a.sizeofInt +
      2 * a.sizeofLong * blockChain.numExtents.toNat

/-- What the allocator's `save_config_info` returns: the swap allocator has none, the file
allocator saves `toi_file_target` with its terminating zero. -/
def ActiveAllocator.saveConfigInfo : ActiveAllocator → Option Nat
  | .swap _ => none
  | .file toiFileTargetLength _ => some (toiFileTargetLength + 1)

/-- The allocator's entry of `toi_modules`. -/
def ActiveAllocator.ops (alloc : ActiveAllocator) : ToiModuleOps :=
  ⟨.writerModule, true, some (alloc.storageNeeded a sz), alloc.saveConfigInfo⟩

/-- The chains `toi_writer_posn` walks. -/
def ActiveAllocator.chains : ActiveAllocator → List HibernateExtentChain
  | .swap blockChain => blockChain
  | .file _ blockChain => [blockChain]

end Allocators

/-- What the header's size depends on: the modules registered before and after the active
allocator, the allocator, and the number of `bm_block`s of `pageset1_map`. -/
structure HeaderState where
  modulesBefore : List ToiModuleOps
  allocator : ActiveAllocator
  modulesAfter : List ToiModuleOps
  pageset1Blocks : Nat

section Header

variable (a : Arch) (sz : Sizeof)

/-- `toi_modules`, in registration order. -/
def HeaderState.toiModules (st : HeaderState) : List ToiModuleOps :=
  st.modulesBefore ++ [st.allocator.ops a sz] ++ st.modulesAfter

/-- The place of `toiActiveAllocator` in `toi_modules`. -/
def HeaderState.active (st : HeaderState) : Nat := st.modulesBefore.length

/-- The `header_requested` that `toi_header_storage_for_modules` gives module `i`, `none` for a
module it skips (disabled, an inactive allocator, or without `storage_needed`). -/
def headerRequest (active i : Nat) (m : ToiModuleOps) : Option Nat :=
  if !m.enabled || (m.moduleType == .writerModule && i != active) then none
  else m.storageNeeded.map fun n => n + sz.toiModuleHeader + a.sizeofInt

/-- `toi_header_storage_for_modules()`: the modules' requests and the empty terminator. -/
def toiHeaderStorageForModules (st : HeaderState) : Nat :=
  ((st.toiModules a sz).zipIdx.map fun p => (headerRequest a sz st.active p.2 p.1).getD 0).sum +
    sz.toiModuleHeader

/-- The `header_requested` of module `i` after `toi_header_storage_for_modules`; the modules it
skips keep the `0` of `toi_initialise_modules`. -/
def headerRequested (st : HeaderState) (i : Nat) : Nat :=
  (((st.toiModules a sz)[i]?).bind (headerRequest a sz st.active i)).getD 0

/-- `toi_pageflags_space_needed()` for `blocks` blocks of `pageset1_map`. -/
def toiPageflagsSpaceNeeded (blocks : Nat) : Nat :=
  a.sizeofInt + blocks * (2 * a.sizeofLong + a.pageSize)

/-- `get_header_storage_needed()`, in pages. -/
def getHeaderStorageNeeded (st : HeaderState) : Nat :=
  let bytes := sz.toiHeader + toiHeaderStorageForModules a sz st +
    toiPageflagsSpaceNeeded a st.pageset1Blocks
  (bytes + a.pageSize - 1) / a.pageSize

/-- The chunks `write_module_configs` writes for module `i`: its header, the length and the
data `save_config_info` returned, if any. -/
def moduleConfigChunks (active i : Nat) (m : ToiModuleOps) : List HeaderChunk :=
  if !m.enabled || m.storageNeeded.isNone || (m.moduleType == .writerModule && i != active) then []
  else
    let len := m.saveConfigInfo.getD 0
    [⟨some i, sz.toiModuleHeader⟩, ⟨some i, a.sizeofInt⟩] ++
      if len ≠ 0 then [⟨some i, len⟩] else []

/-- `write_module_configs()`: the modules in registration order, then the blank terminator. -/
def writeModuleConfigs (st : HeaderState) : List HeaderChunk :=
  ((st.toiModules a sz).zipIdx.flatMap fun p => moduleConfigChunks a sz st.active p.2 p.1) ++
    [⟨none, sz.toiModuleHeader⟩]

/-- `memory_bm_write(pageset1_map, rw_header_chunk)` for a bitmap of `blocks` blocks: the count,
then each block's `start_pfn` and `end_pfn` and its page of bits. -/
def memoryBmWrite (blocks : Nat) : List HeaderChunk :=
  ⟨none, a.sizeofInt⟩ ::
    (List.replicate blocks [⟨none, 2 * a.sizeofLong⟩, ⟨none, a.pageSize⟩]).flatten

/-- The chunks of `write_image_header`. -/
def writeImageHeaderChunks (st : HeaderState) : List HeaderChunk :=
  st.allocator.writeHeaderInit a sz st.active ++ [⟨none, sz.toiHeader⟩] ++
    writeModuleConfigs a sz st ++ memoryBmWrite a st.pageset1Blocks

/-- What `_toi_rw_header_chunk` counts: each module's `header_used`, the bytes passed on to
`toi_rw_buffer`, and whether a chunk was refused for passing its owner's request. -/
structure ChunkCounts where
  headerUsed : Nat → Nat
  written : Nat
  overUsed : Bool

/-- `_toi_rw_header_chunk(WRITE, owner, buffer, size, ...)`. -/
def toiRwHeaderChunk (requested : Nat → Nat) (c : ChunkCounts) (chunk : HeaderChunk) :
    ChunkCounts :=
  match chunk.owner with
  | some i =>
    let used := c.headerUsed i + chunk.size
    let c := { c with headerUsed := Function.update c.headerUsed i used }
    -- "TuxOnIce module %s is using more header space (%u) than it requested (%u).":
    -- the chunk is not written
    if used > requested i then { c with overUsed := true }
    else { c with written := c.written + chunk.size }
  | none => { c with written := c.written + chunk.size }

/-- `write_image_header`, from the `header_used` of `0` that `toi_initialise_modules` sets. -/
def writeImageHeader (st : HeaderState) : ChunkCounts :=
  (writeImageHeaderChunks a sz st).foldl (toiRwHeaderChunk (headerRequested a sz st))
    ⟨fun _ => 0, 0, false⟩

/-- The loop of `update_image` that reserves the header: `allocateStorage r st` is
`reserve_header_space(r)` followed by the allocation of storage, which may change what the header
needs. The loop ends with the reservation in force and the state; `none` when it has not ended
within `fuel` rounds. -/
def updateImageHeaderLoop (allocateStorage : Nat → HeaderState → HeaderState) :
    Nat → Nat → HeaderState → Option (Nat × HeaderState)
  | 0, _, _ => none
  | fuel + 1, headerStorageNeeded, st =>
    let oldHeaderReq := headerStorageNeeded
    let st := allocateStorage oldHeaderReq st
    let headerStorageNeeded := getHeaderStorageNeeded a sz st
    if headerStorageNeeded > oldHeaderReq then
      updateImageHeaderLoop allocateStorage fuel headerStorageNeeded st
    else some (oldHeaderReq, st)

end Header

/-! ### Counting the chunks -/

section Counting

variable {α : Type}

@[simp] theorem chunkBytes_nil (o : Option Nat) : chunkBytes o [] = 0 := rfl

theorem chunkBytes_cons (o : Option Nat) (c : HeaderChunk) (cs : List HeaderChunk) :
    chunkBytes o (c :: cs) = (if c.owner = o then c.size else 0) + chunkBytes o cs := by
  by_cases h : c.owner = o <;> simp [chunkBytes, h]

@[simp] theorem chunkBytes_append (o : Option Nat) (cs ds : List HeaderChunk) :
    chunkBytes o (cs ++ ds) = chunkBytes o cs + chunkBytes o ds := by
  simp [chunkBytes, List.filter_append]

@[simp] theorem totalBytes_nil : totalBytes [] = 0 := rfl

@[simp] theorem totalBytes_cons (c : HeaderChunk) (cs : List HeaderChunk) :
    totalBytes (c :: cs) = c.size + totalBytes cs := by
  simp [totalBytes]

@[simp] theorem totalBytes_append (cs ds : List HeaderChunk) :
    totalBytes (cs ++ ds) = totalBytes cs + totalBytes ds := by
  simp [totalBytes]

theorem chunkBytes_flatMap (o : Option Nat) (l : List α) (g : α → List HeaderChunk) :
    chunkBytes o (l.flatMap g) = (l.map fun x => chunkBytes o (g x)).sum := by
  induction l with
  | nil => rfl
  | cons x l ih => rw [List.flatMap_cons, chunkBytes_append, ih, List.map_cons, List.sum_cons]

theorem totalBytes_flatMap (l : List α) (g : α → List HeaderChunk) :
    totalBytes (l.flatMap g) = (l.map fun x => totalBytes (g x)).sum := by
  induction l with
  | nil => rfl
  | cons x l ih => rw [List.flatMap_cons, totalBytes_append, ih, List.map_cons, List.sum_cons]

theorem chunkBytes_of_owner {o : Option Nat} {cs : List HeaderChunk}
    (h : ∀ c ∈ cs, c.owner = o) (o' : Option Nat) :
    chunkBytes o' cs = if o = o' then totalBytes cs else 0 := by
  split
  · rename_i hoo
    subst hoo
    rw [chunkBytes, List.filter_eq_self.mpr (fun c hc => by simp [h c hc])]
    rfl
  · rename_i hoo
    rw [chunkBytes, List.filter_eq_nil_iff.mpr (fun c hc => by simp [h c hc, hoo])]
    rfl

end Counting

/-! ### `_toi_rw_header_chunk` on chunks that fit -/

section Fold

variable {requested : Nat → Nat}

theorem toiRwHeaderChunk_of_le {c : ChunkCounts} {chunk : HeaderChunk}
    (h : ∀ i, chunk.owner = some i → c.headerUsed i + chunk.size ≤ requested i) :
    toiRwHeaderChunk requested c chunk =
      { c with
        headerUsed := fun i => c.headerUsed i + if chunk.owner = some i then chunk.size else 0
        written := c.written + chunk.size } := by
  obtain ⟨o, n⟩ := chunk
  cases o with
  | none => simp [toiRwHeaderChunk]
  | some j =>
    have hj := h j rfl
    simp only [toiRwHeaderChunk, gt_iff_lt, if_neg (Nat.not_lt.mpr hj)]
    congr 1
    funext i
    by_cases hij : i = j
    · subst hij
      simp
    · simp [Function.update_of_ne hij, Ne.symm hij]

theorem foldl_toiRwHeaderChunk :
    ∀ (cs : List HeaderChunk) (c : ChunkCounts), c.overUsed = false →
      (∀ i, c.headerUsed i + chunkBytes (some i) cs ≤ requested i) →
      (cs.foldl (toiRwHeaderChunk requested) c).overUsed = false ∧
      (cs.foldl (toiRwHeaderChunk requested) c).written = c.written + totalBytes cs ∧
      ∀ i, (cs.foldl (toiRwHeaderChunk requested) c).headerUsed i =
        c.headerUsed i + chunkBytes (some i) cs
  | [], c, hc, _ => by simp [hc]
  | chunk :: cs, c, hc, hfit => by
    have hstep := @toiRwHeaderChunk_of_le requested c chunk
      (fun i hi => by
        have := hfit i
        rw [chunkBytes_cons, if_pos hi] at this
        omega)
    -- the rest of the chunks fit from the state after this one
    obtain ⟨ho, hw, hu⟩ := foldl_toiRwHeaderChunk cs (toiRwHeaderChunk requested c chunk)
      (by rw [hstep]; exact hc) (fun i => by
      have := hfit i
      rw [chunkBytes_cons] at this
      rw [hstep]
      dsimp only
      omega)
    rw [List.foldl_cons]
    refine ⟨ho, ?_, fun i => ?_⟩
    · rw [hw, hstep, totalBytes_cons]
      dsimp only
      omega
    · rw [hu, hstep, chunkBytes_cons]
      dsimp only
      omega

end Fold

/-! ### What the allocators and the modules write -/

section Written

variable {a : Arch} {sz : Sizeof}

/-- The extent-chain invariant the header relies on: each chain's `num_extents` counts its
list. -/
def ActiveAllocator.ExtentsCounted (alloc : ActiveAllocator) : Prop :=
  ∀ ch ∈ alloc.chains, ch.numExtents = ch.extents.length

instance (alloc : ActiveAllocator) : Decidable alloc.ExtentsCounted :=
  inferInstanceAs (Decidable (∀ ch ∈ alloc.chains, ch.numExtents = ch.extents.length))

theorem toiSerialiseExtentChain_owner {o : Option Nat} {ch : HibernateExtentChain} :
    ∀ c ∈ toiSerialiseExtentChain a o ch, c.owner = o := by
  simp [toiSerialiseExtentChain]

theorem totalBytes_toiSerialiseExtentChain (o : Option Nat) (ch : HibernateExtentChain) :
    totalBytes (toiSerialiseExtentChain a o ch) =
      2 * a.sizeofInt + 2 * a.sizeofLong * ch.extents.length := by
  simp [toiSerialiseExtentChain, totalBytes, Nat.mul_comm]

theorem writeHeaderInit_owner (owner : Nat) (alloc : ActiveAllocator) :
    ∀ c ∈ alloc.writeHeaderInit a sz owner, c.owner = some owner := by
  cases alloc with
  | swap blockChain =>
    intro c hc
    simp only [ActiveAllocator.writeHeaderInit, List.mem_append, List.mem_cons, List.mem_flatMap,
      List.not_mem_nil, or_false] at hc
    rcases hc with (rfl | rfl | rfl) | ⟨ch, -, hc⟩
    · rfl
    · rfl
    · rfl
    · exact toiSerialiseExtentChain_owner c hc
  | file _ blockChain =>
    intro c hc
    simp only [ActiveAllocator.writeHeaderInit, List.mem_append, List.mem_cons,
      List.not_mem_nil, or_false] at hc
    rcases hc with (rfl | rfl) | hc
    · rfl
    · rfl
    · exact toiSerialiseExtentChain_owner c hc

/-- The allocators' `storage_needed` is what their `write_header_init` and `save_config_info`
write. -/
theorem writeHeaderInit_add_saveConfigInfo {alloc : ActiveAllocator} (owner : Nat)
    (h : alloc.ExtentsCounted) :
    totalBytes (alloc.writeHeaderInit a sz owner) + alloc.saveConfigInfo.getD 0 =
      alloc.storageNeeded a sz := by
  cases alloc with
  | swap blockChain =>
    have hchains : (blockChain.map fun ch => totalBytes (toiSerialiseExtentChain a (some owner) ch)) =
        blockChain.map fun ch => 2 * a.sizeofInt + 2 * a.sizeofLong * ch.numExtents.toNat := by
      refine List.map_congr_left fun ch hch => ?_
      rw [totalBytes_toiSerialiseExtentChain, h ch hch, Int.toNat_natCast]
    simp only [ActiveAllocator.writeHeaderInit, ActiveAllocator.saveConfigInfo,
      ActiveAllocator.storageNeeded, totalBytes_append, totalBytes_flatMap, hchains,
      Option.getD_none, totalBytes_cons, totalBytes_nil]
    omega
  | file n blockChain =>
    have hn := h blockChain (by simp [ActiveAllocator.chains])
    simp only [ActiveAllocator.writeHeaderInit, ActiveAllocator.saveConfigInfo,
      ActiveAllocator.storageNeeded, totalBytes_append, totalBytes_toiSerialiseExtentChain,
      Option.getD_some, totalBytes_cons, totalBytes_nil, hn, Int.toNat_natCast]
    omega

theorem moduleConfigChunks_owner {active i : Nat} {m : ToiModuleOps} :
    ∀ c ∈ moduleConfigChunks a sz active i m, c.owner = some i := by
  unfold moduleConfigChunks
  split
  · simp
  · intro c hc
    simp only [List.mem_append, List.mem_cons, List.not_mem_nil, or_false] at hc
    rcases hc with (rfl | rfl) | hc
    · rfl
    · rfl
    · split at hc
      · simp only [List.mem_cons, List.not_mem_nil, or_false] at hc
        rw [hc]
      · cases hc

theorem totalBytes_moduleConfigChunks_le {active i : Nat} {m : ToiModuleOps}
    (hfit : m.enabled = true → ∀ n, m.storageNeeded = some n → m.saveConfigInfo.getD 0 ≤ n) :
    totalBytes (moduleConfigChunks a sz active i m) ≤ (headerRequest a sz active i m).getD 0 := by
  unfold moduleConfigChunks headerRequest
  split
  · simp
  · rename_i hwrites
    -- a module `write_module_configs` writes is one `toi_header_storage_for_modules` counts
    obtain ⟨henabled, n, hn, hactive⟩ : m.enabled = true ∧ ∃ n, m.storageNeeded = some n ∧
        ¬ (m.moduleType == .writerModule && i != active) = true := by
      cases hs : m.storageNeeded <;> simp_all
    have hlen := hfit henabled n hn
    rw [if_neg (by simp [henabled, hactive]), hn]
    by_cases hl : m.saveConfigInfo.getD 0 = 0
    · simp [hl]
    · simp [hl]
      omega

theorem headerRequest_ops (active : Nat) (alloc : ActiveAllocator) :
    headerRequest a sz active active (alloc.ops a sz) =
      some (alloc.storageNeeded a sz + sz.toiModuleHeader + a.sizeofInt) := by
  simp [headerRequest, ActiveAllocator.ops]

theorem writeHeaderInit_add_moduleConfigChunks {alloc : ActiveAllocator} (active : Nat)
    (h : alloc.ExtentsCounted) :
    totalBytes (alloc.writeHeaderInit a sz active) +
        totalBytes (moduleConfigChunks a sz active active (alloc.ops a sz)) =
      (headerRequest a sz active active (alloc.ops a sz)).getD 0 := by
  have hinit := @writeHeaderInit_add_saveConfigInfo a sz alloc active h
  rw [headerRequest_ops, Option.getD_some, ← hinit]
  simp only [moduleConfigChunks, ActiveAllocator.ops, Bool.not_true, Option.isNone_some,
    bne_self_eq_false, Bool.and_false, Bool.or_self, Bool.false_eq_true, if_false]
  by_cases hl : alloc.saveConfigInfo.getD 0 = 0
  · simp [hl]
    omega
  · simp [hl]
    omega

end Written

/-! ### The whole header -/

section Whole

variable {a : Arch} {sz : Sizeof} {st : HeaderState}

/-- What the header's count assumes of the state it is written from: the other modules save no
more than their `storage_needed()`, and each chain's `num_extents` counts its list. -/
structure HeaderState.Fits (st : HeaderState) : Prop where
  configs_fit : ∀ m ∈ st.modulesBefore ++ st.modulesAfter, m.enabled = true →
    ∀ n, m.storageNeeded = some n → m.saveConfigInfo.getD 0 ≤ n
  extents_counted : st.allocator.ExtentsCounted

theorem toiModules_active : (st.toiModules a sz)[st.active]? = some (st.allocator.ops a sz) := by
  simp [HeaderState.toiModules, HeaderState.active]

theorem mem_of_toiModules {i : Nat} {m : ToiModuleOps} (h : (st.toiModules a sz)[i]? = some m)
    (hi : i ≠ st.active) : m ∈ st.modulesBefore ++ st.modulesAfter := by
  unfold HeaderState.toiModules at h
  unfold HeaderState.active at hi
  rw [List.mem_append]
  by_cases hlt : i < st.modulesBefore.length
  · rw [List.append_assoc, List.getElem?_append_left hlt] at h
    exact Or.inl (List.mem_of_getElem? h)
  · obtain ⟨j, hj⟩ : ∃ j, i - st.modulesBefore.length = j + 1 := ⟨i - st.modulesBefore.length - 1, by omega⟩
    rw [List.append_assoc, List.getElem?_append_right (by omega), List.singleton_append, hj,
      List.getElem?_cons_succ] at h
    exact Or.inr (List.mem_of_getElem? h)

theorem memoryBmWrite_owner (blocks : Nat) : ∀ c ∈ memoryBmWrite a blocks, c.owner = none := by
  intro c hc
  simp only [memoryBmWrite, List.mem_cons, List.mem_flatten, List.mem_replicate] at hc
  rcases hc with rfl | ⟨l, ⟨-, rfl⟩, hc⟩
  · rfl
  · simp only [List.mem_cons, List.not_mem_nil, or_false] at hc
    rcases hc with rfl | rfl <;> rfl

theorem totalBytes_replicate_flatten (n : Nat) (cs : List HeaderChunk) :
    totalBytes (List.replicate n cs).flatten = n * totalBytes cs := by
  induction n with
  | zero => rw [List.replicate_zero, List.flatten_nil, Nat.zero_mul, totalBytes_nil]
  | succ n ih =>
    rw [List.replicate_succ, List.flatten_cons, totalBytes_append, ih, Nat.add_one_mul,
      Nat.add_comm]

theorem totalBytes_memoryBmWrite (blocks : Nat) :
    totalBytes (memoryBmWrite a blocks) = toiPageflagsSpaceNeeded a blocks := by
  simp only [memoryBmWrite, totalBytes_cons, totalBytes_replicate_flatten, totalBytes_nil,
    toiPageflagsSpaceNeeded, Nat.add_zero]

theorem chunkBytes_writeImageHeaderChunks (i : Nat) :
    chunkBytes (some i) (writeImageHeaderChunks a sz st) =
      (if st.active = i then totalBytes (st.allocator.writeHeaderInit a sz st.active) else 0) +
        (((st.toiModules a sz)[i]?).map
          fun m => totalBytes (moduleConfigChunks a sz st.active i m)).getD 0 := by
  have hconfig : ((st.toiModules a sz).zipIdx.map fun p =>
      chunkBytes (some i) (moduleConfigChunks a sz st.active p.2 p.1)) =
      (st.toiModules a sz).zipIdx.map fun p =>
        if p.2 = i then totalBytes (moduleConfigChunks a sz st.active p.2 p.1) else 0 := by
    refine List.map_congr_left fun p _ => ?_
    simp only [chunkBytes_of_owner moduleConfigChunks_owner, Option.some_inj]
  have hbm : chunkBytes (some i) (memoryBmWrite a st.pageset1Blocks) = 0 := by
    rw [chunkBytes_of_owner (memoryBmWrite_owner st.pageset1Blocks) (some i)]
    simp
  simp only [writeImageHeaderChunks, writeModuleConfigs, chunkBytes_append, chunkBytes_flatMap,
    hconfig, sum_zipIdx_ite, chunkBytes_of_owner (writeHeaderInit_owner _ _) (some i),
    Option.some_inj, hbm, chunkBytes_cons, chunkBytes_nil, reduceCtorEq, if_false,
    Nat.zero_le, if_true, Nat.sub_zero]
  omega

theorem chunkBytes_writeImageHeaderChunks_le (h : st.Fits) (i : Nat) :
    chunkBytes (some i) (writeImageHeaderChunks a sz st) ≤ headerRequested a sz st i := by
  rw [chunkBytes_writeImageHeaderChunks, headerRequested]
  by_cases hi : st.active = i
  · -- the active allocator: its data and its configuration are what it requested
    subst hi
    rw [toiModules_active, if_pos rfl, Option.map_some, Option.getD_some, Option.bind_some,
      writeHeaderInit_add_moduleConfigChunks _ h.extents_counted]
  · rw [if_neg hi, Nat.zero_add]
    cases hm : (st.toiModules a sz)[i]? with
    | none => simp
    | some m =>
      simp only [Option.map_some, Option.getD_some, Option.bind_some]
      exact totalBytes_moduleConfigChunks_le
        (h.configs_fit m (mem_of_toiModules hm (Ne.symm hi)))

theorem totalBytes_writeImageHeaderChunks_le (h : st.Fits) :
    totalBytes (writeImageHeaderChunks a sz st) ≤
      sz.toiHeader + toiHeaderStorageForModules a sz st + toiPageflagsSpaceNeeded a st.pageset1Blocks := by
  -- place by place, the modules' configurations and the allocator's data fit their requests
  have hle := sum_zipIdx_le (l := st.toiModules a sz) (k := 0)
    (f := fun p => totalBytes (moduleConfigChunks a sz st.active p.2 p.1) +
      if p.2 = st.active then totalBytes (st.allocator.writeHeaderInit a sz st.active) else 0)
    (g := fun p => (headerRequest a sz st.active p.2 p.1).getD 0) (fun i hi => by
      rw [Nat.zero_add]
      have hget : (st.toiModules a sz)[i]? = some (st.toiModules a sz)[i] :=
        List.getElem?_eq_getElem hi
      by_cases hia : i = st.active
      · subst hia
        rw [toiModules_active, Option.some_inj] at hget
        rw [if_pos rfl, ← hget, Nat.add_comm]
        exact (writeHeaderInit_add_moduleConfigChunks _ h.extents_counted).le
      · rw [if_neg hia, Nat.add_zero]
        exact totalBytes_moduleConfigChunks_le
          (h.configs_fit _ (mem_of_toiModules hget hia)))
  have hinit := sum_zipIdx_ite_of_getElem? (j := st.active)
    (fun _ => totalBytes (st.allocator.writeHeaderInit a sz st.active))
    (@toiModules_active a sz st)
  simp only [List.sum_map_add] at hle
  simp only [writeImageHeaderChunks, writeModuleConfigs, totalBytes_append, totalBytes_flatMap,
    totalBytes_memoryBmWrite, totalBytes_cons, totalBytes_nil, toiHeaderStorageForModules]
  omega

theorem writeImageHeader_fits (h : st.Fits) :
    (writeImageHeader a sz st).overUsed = false ∧
      (∀ i, (writeImageHeader a sz st).headerUsed i ≤ headerRequested a sz st i) ∧
      (writeImageHeader a sz st).written = totalBytes (writeImageHeaderChunks a sz st) ∧
      (writeImageHeader a sz st).written ≤ a.pageSize * getHeaderStorageNeeded a sz st := by
  obtain ⟨hover, hwritten, hused⟩ := @foldl_toiRwHeaderChunk (headerRequested a sz st)
    (writeImageHeaderChunks a sz st) ⟨fun _ => 0, 0, false⟩ rfl
    (fun i => by simpa using chunkBytes_writeImageHeaderChunks_le h i)
  have hbytes := @totalBytes_writeImageHeaderChunks_le a sz st h
  have hwritten' : (writeImageHeader a sz st).written = totalBytes (writeImageHeaderChunks a sz st) := by
    rw [writeImageHeader, hwritten, Nat.zero_add]
  refine ⟨hover, fun i => ?_, hwritten', ?_⟩
  · rw [writeImageHeader, hused, Nat.zero_add]
    exact chunkBytes_writeImageHeaderChunks_le h i
  · -- `DIV_ROUND_UP` pages hold the bytes they are counted from
    have hP := a.pageSize_pos
    have hdiv := Nat.div_add_mod (sz.toiHeader + toiHeaderStorageForModules a sz st +
      toiPageflagsSpaceNeeded a st.pageset1Blocks + a.pageSize - 1) a.pageSize
    have hmod := Nat.mod_lt (sz.toiHeader + toiHeaderStorageForModules a sz st +
      toiPageflagsSpaceNeeded a st.pageset1Blocks + a.pageSize - 1) hP
    rw [hwritten', getHeaderStorageNeeded]
    omega

end Whole

/-! ### The reservation -/

section Reservation

variable {a : Arch} {sz : Sizeof} {allocateStorage : Nat → HeaderState → HeaderState}

theorem updateImageHeaderLoop_reserved :
    ∀ {fuel need R : Nat} {st₀ st : HeaderState},
      updateImageHeaderLoop a sz allocateStorage fuel need st₀ = some (R, st) →
      getHeaderStorageNeeded a sz st ≤ R
  | 0, _, _, _, _, h => by cases h
  | fuel + 1, need, R, st₀, st, h => by
    rw [updateImageHeaderLoop] at h
    split at h
    · exact updateImageHeaderLoop_reserved h
    · -- the loop stops when the header needed is no larger than the reservation
      rename_i hle
      cases h
      omega

end Reservation

/-- The header reservation covers the header. When the loop of `update_image` ends with `R`
pages reserved and the state written from is the one it ended in, with the other modules saving
no more than their `storage_needed()` and the chains' counts right, `write_image_header` refuses
no chunk, no module's `header_used` passes its `header_requested`, and the header takes at most
`R` pages: written through `toi_rw_buffer`, its pages go on the tape pages `1, …` that the
reservation holds, each write returning `0` (`debug_broken_header` is not reached). -/
theorem header_reservation_covers_header (a : Arch) (sz : Sizeof)
    (allocateStorage : Nat → HeaderState → HeaderState) {fuel need₀ R : Nat}
    {st₀ st : HeaderState}
    (hloop : updateImageHeaderLoop a sz allocateStorage fuel need₀ st₀ = some (R, st))
    (hfits : st.Fits) :
    (writeImageHeader a sz st).overUsed = false ∧
      (∀ i, (writeImageHeader a sz st).headerUsed i ≤ headerRequested a sz st i) ∧
      (writeImageHeader a sz st).written ≤ a.pageSize * R ∧
      ∀ w : WriteBuffer a.pageSize, w.view.length = (writeImageHeader a sz st).written →
        (toiRwCleanupWrite w).length ≤ R ∧
        ∀ (devinfo : Nat → ToiBdevInfo) (s : BioState), (∀ ch ∈ st.allocator.chains, ch.Wf) →
          PagesAdvance st.allocator.chains devinfo →
          SlotHolds st.allocator.chains devinfo s 2 R → s.extraPageForward = false →
          (tapePosn st.allocator.chains devinfo R).currentChain ≠ st.allocator.chains.length →
          ∃ s', writeStream st.allocator.chains devinfo a.pageSize 0 (toiRwCleanupWrite w).length s =
            some (s', List.replicate (toiRwCleanupWrite w).length 0) := by
  obtain ⟨hover, hused, -, hbytes⟩ := @writeImageHeader_fits a sz st hfits
  have hR := updateImageHeaderLoop_reserved hloop
  have hP := a.pageSize_pos
  have hwritten : (writeImageHeader a sz st).written ≤ a.pageSize * R :=
    hbytes.trans (Nat.mul_le_mul_left _ hR)
  -- the pages of the header: `⌈written / PAGE_SIZE⌉`, no more than `R`
  have hpages : ∀ w : WriteBuffer a.pageSize, w.view.length = (writeImageHeader a sz st).written →
      (toiRwCleanupWrite w).length ≤ R := by
    intro w hw
    rw [length_toiRwCleanupWrite w hP, hw]
    have hdiv := Nat.div_add_mod ((writeImageHeader a sz st).written + a.pageSize - 1) a.pageSize
    have hmod := Nat.mod_lt ((writeImageHeader a sz st).written + a.pageSize - 1) hP
    by_contra hgt
    have : a.pageSize * (R + 1) ≤ a.pageSize *
        (((writeImageHeader a sz st).written + a.pageSize - 1) / a.pageSize) :=
      Nat.mul_le_mul_left _ (by omega)
    rw [Nat.mul_add_one] at this
    omega
  refine ⟨hover, hused, hwritten, fun w hw => ⟨hpages w hw, ?_⟩⟩
  intro devinfo s hwf hbpp hslot hx hne
  exact ⟨_, writeStream_header hwf hbpp a.pageSize (hpages w hw) hslot hx hne⟩

/-- The struct sizes on x86-64. -/
def sizeofX86_64 : Sizeof := ⟨472, 56, 24, 64, 24⟩

/-- Two swap devices with one extent each, the block I/O module registered before the swap
allocator and a compressor after it, and a bitmap of one block. -/
def twoSwapDevices : HeaderState :=
  ⟨[⟨.miscHiddenModule, true, some 4, some 4⟩], .swap [⟨1, 1, [⟨10, 10⟩], none⟩, ⟨3, 1, [⟨4, 6⟩], none⟩],
    [⟨.filterModule, true, some 36, some 20⟩], 1⟩

theorem header_reservation_covers_header_two_swap_devices :
    updateImageHeaderLoop .x86_64 sizeofX86_64 (fun _ st => st) 2 0 twoSwapDevices =
        some (2, twoSwapDevices) ∧ twoSwapDevices.Fits ∧
      (writeImageHeader .x86_64 sizeofX86_64 twoSwapDevices).overUsed = false ∧
      (writeImageHeader .x86_64 sizeofX86_64 twoSwapDevices).written ≤ Arch.x86_64.pageSize * 2 := by
  have hfits : twoSwapDevices.Fits := by
    refine ⟨?_, by decide⟩
    intro m hm
    simp only [twoSwapDevices, List.mem_append, List.mem_cons, List.not_mem_nil, or_false] at hm
    rcases hm with rfl | rfl <;> simp
  have hloop : updateImageHeaderLoop .x86_64 sizeofX86_64 (fun _ st => st) 2 0 twoSwapDevices =
      some (2, twoSwapDevices) := rfl
  have h := header_reservation_covers_header .x86_64 sizeofX86_64 (fun _ st => st) hloop hfits
  exact ⟨hloop, hfits, h.1, h.2.2.1⟩

end TuxOnIceFastboot.Header
