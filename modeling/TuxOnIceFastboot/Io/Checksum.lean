import TuxOnIceFastboot.Base
import TuxOnIceFastboot.Io.Worker
import TuxOnIceFastboot.Lib.Threads

/-!
# Checksums of pageset 2 (`tuxonice_checksum.c`, `tuxonice_io.c`)

Before the atomic copy, pageset 2 is written from the pages themselves, and the checksum module
records an md4 digest of each page as it is written; after the copy `check_checksums` digests
each page again and marks those that changed for resaving.

`allocate_checksum_pages` pushes pages on the list `page_list`, the first word of each holding
the address of the page below it, until `checksum_pages_needed()` are there; the rest of a page
holds `CHECKSUMS_PER_PAGE` slots of `CHECKSUM_SIZE` bytes. Both `tuxonice_get_next_checksum` and
`check_checksums` walk the slots with the same step (`nextSlot`): the next slot of the page, or
at a multiple of `CHECKSUMS_PER_PAGE` the first slot of `next_page`, whose first word gives the
page after it. After `k` steps from the head of the list the walk stands at slot `k` (`slotAt`),
the `k mod CHECKSUMS_PER_PAGE`-th of page `k / CHECKSUMS_PER_PAGE` (`WalkAt.step`).

The workers of `do_rw_loop` (`Io.Worker`) take the pfns of `io_map` in order under `io_mutex`, and
for pageset 2 the same locked part takes the next slot into the `checksum_locn` of the CPU the
thread runs on; after `io_mutex` is released, `tuxonice_calc_checksum` writes the page's digest
where that variable points. `ChecksumIoState` adds these statics to the loop's state, and
`checksumIoStep` is `ioStep` with what each step does to them. The memory of the slots (`sums`)
and that of the first words of the pages (`ChecksumPages.links`) are kept apart: a slot starts
after the first word of its page.

Each writer thread has a CPU of its own (`RwLoopCpus`), so every thread about to write the pfn
of rank `j` in `pageset2_map` holds slot `j`, and the slot of every page written holds its digest
(`SumInv`); `check_checksums` compares the pfn of rank `j` with slot `j` (`checkChecksums_eq`),
and all the slots lie in the allocated pages (`slotAt_mem_pages`). Two threads on one CPU would
share `checksum_locn`: only the binding of every worker to its own CPU keeps a page's digest out
of the slot of a page another thread took. Digest failures and `TOI_ABORT_ON_RESAVE_NEEDED` are
left out.
-/

namespace TuxOnIceFastboot.Io

open TuxOnIceFastboot.Lib TuxOnIceFastboot.Snapshot

/-! ### The checksum pages -/

/-- `CHECKSUM_SIZE`: the bytes of one digest. -/
def checksumSize : Nat := 16

/-- `CHECKSUMS_PER_PAGE`: a page holds the address of the next page, `sizeof(void *)` bytes (that
of `unsigned long`), then its slots. -/
def checksumsPerPage (a : Arch) : Nat := (a.pageSize - a.sizeofLong) / checksumSize

/-- `checksum_pages_needed()`: `DIV_ROUND_UP(pagedir2.size, CHECKSUMS_PER_PAGE)`. -/
def checksumPagesNeeded (a : Arch) (size : Nat) : Nat :=
  (size + checksumsPerPage a - 1) / checksumsPerPage a

/-- `page_list` and `pages_allocated`, and `links` the first word of each page. -/
structure ChecksumPages where
  pageList : Nat
  pagesAllocated : Nat
  links : Nat → Nat

/-- The pages of the list: from `page_list` along the first words, `pages_allocated` of them. -/
def ChecksumPages.pages (c : ChecksumPages) : List Nat :=
  (List.range c.pagesAllocated).map fun i => c.links^[i] c.pageList

/-- A new page on the list: `*new_page = page_list; page_list = new_page; pages_allocated++`. -/
def ChecksumPages.push (c : ChecksumPages) (page : Nat) : ChecksumPages :=
  ⟨page, c.pagesAllocated + 1, Function.update c.links page c.pageList⟩

/-- The statics `this_checksum`, `next_page` and `checksum_index` of the walk. -/
structure ChecksumWalk where
  thisChecksum : Nat
  nextPage : Nat
  checksumIndex : Nat
  deriving DecidableEq, Repr

/-- The end of `allocate_checksum_pages`: `next_page = page_list; checksum_index = 0`. -/
def checksumWalkStart (c : ChecksumPages) (w : ChecksumWalk) : ChecksumWalk :=
  { w with nextPage := c.pageList, checksumIndex := 0 }

/-- The loop of `allocate_checksum_pages` and what follows it; `fresh` are the pages
`toi_get_zeroed_page` hands out, and it fails once they are used up. -/
def allocateChecksumPagesLoop (needed : Nat) (w : ChecksumWalk) :
    List Nat → ChecksumPages → ChecksumPages × ChecksumWalk × Int
  | [], c =>
    -- "Unable to allocate checksum pages."
    if c.pagesAllocated < needed then (c, w, -ENOMEM) else (c, checksumWalkStart c w, 0)
  | page :: fresh, c =>
    if c.pagesAllocated < needed then allocateChecksumPagesLoop needed w fresh (c.push page)
    else (c, checksumWalkStart c w, 0)

/-- `allocate_checksum_pages`, for `pagedir2.size = size`. -/
def allocateChecksumPages (a : Arch) (enabled : Bool) (size : Nat) (fresh : List Nat)
    (c : ChecksumPages) (w : ChecksumWalk) : ChecksumPages × ChecksumWalk × Int :=
  if enabled then allocateChecksumPagesLoop (checksumPagesNeeded a size) w fresh c else (c, w, 0)

/-- The step of both walks over the slots, from `this_checksum`, `next_page` and the index of the
slot to take; it returns the new `this_checksum` and `next_page`. -/
def nextSlot (a : Arch) (links : Nat → Nat) (thisChecksum nextPage index : Nat) : Nat × Nat :=
  if index % checksumsPerPage a ≠ 0 then (thisChecksum + checksumSize, nextPage)
  else (nextPage + a.sizeofLong, links nextPage)

/-- `tuxonice_get_next_checksum`: the walk's statics after the call, and the slot returned
(`NULL` when the module is disabled). -/
def tuxoniceGetNextChecksum (a : Arch) (enabled : Bool) (links : Nat → Nat) (w : ChecksumWalk) :
    ChecksumWalk × Nat :=
  if enabled then
    let slot := nextSlot a links w.thisChecksum w.nextPage w.checksumIndex
    (⟨slot.1, slot.2, w.checksumIndex + 1⟩, slot.1)
  else (w, 0)

/-- The loop of `check_checksums` over the pfns left, from the walk's `this_checksum`, `next_page`
and `index`: the pfns whose digest differs from their slot's are set Resave. -/
def checkChecksumsLoop (a : Arch) (links : Nat → Nat) (sums digest : Nat → Nat) :
    List Nat → Nat → Nat → Nat → List Nat
  | [], _, _, _ => []
  | pfn :: rest, thisChecksum, nextPage, index =>
    let slot := nextSlot a links thisChecksum nextPage index
    (if digest pfn ≠ sums slot.1 then [pfn] else []) ++
      checkChecksumsLoop a links sums digest rest slot.1 slot.2 (index + 1)

/-- `check_checksums`, with `digest` the digest of each page now: the pfns it sets Resave, whose
number is `toi_num_resaved`. The walk over `pageset2_map` from `memory_bm_position_reset` visits
its pfns in order. -/
def checkChecksums (a : Arch) (enabled : Bool) (c : ChecksumPages) (sums digest : Nat → Nat)
    (pageset2Map : MemoryBitmap) : List Nat :=
  if enabled then checkChecksumsLoop a c.links sums digest pageset2Map.bits 0 c.pageList 0 else []

/-! ### The walk over the slots -/

section Walk

variable {d k : Nat}

theorem succ_div_mod_of_mod_ne_zero (h : (k + 1) % d ≠ 0) :
    (k + 1) / d = k / d ∧ (k + 1) % d = k % d + 1 := by
  have hdiv : (k + 1) / d = k / d :=
    Nat.succ_div_of_not_dvd fun hd => h (Nat.mod_eq_zero_of_dvd hd)
  refine ⟨hdiv, ?_⟩
  have h₁ := Nat.div_add_mod (k + 1) d
  have h₂ := Nat.div_add_mod k d
  rw [hdiv] at h₁
  omega

theorem succ_div_of_mod_eq_zero (h : (k + 1) % d = 0) : (k + 1) / d = k / d + 1 :=
  Nat.succ_div_of_dvd (Nat.dvd_of_mod_eq_zero h)

variable (a : Arch) (c : ChecksumPages)

/-- Slot `j` of the list: on page `j / CHECKSUMS_PER_PAGE`, after the next-page pointer. -/
def ChecksumPages.slotAt (j : Nat) : Nat :=
  c.links^[j / checksumsPerPage a] c.pageList + a.sizeofLong +
    checksumSize * (j % checksumsPerPage a)

/-- Where `this_checksum` and `next_page` stand when the slot of index `k` is the next to take:
at a page boundary `next_page` is that slot's page; within a page it is the page after, and
`this_checksum` is the slot before. -/
structure WalkAt (thisChecksum nextPage k : Nat) : Prop where
  boundary : k % checksumsPerPage a = 0 →
    nextPage = c.links^[k / checksumsPerPage a] c.pageList
  within : k % checksumsPerPage a ≠ 0 →
    nextPage = c.links^[k / checksumsPerPage a + 1] c.pageList ∧
      thisChecksum + checksumSize = c.slotAt a k

theorem walkAt_start (thisChecksum : Nat) : WalkAt a c thisChecksum c.pageList 0 :=
  ⟨fun _ => by simp, fun h => absurd (Nat.zero_mod _) h⟩

variable {a c} {thisChecksum nextPage : Nat}

/-- One step of the walk takes slot `k` and stands ready for slot `k + 1`. -/
theorem WalkAt.step (h : WalkAt a c thisChecksum nextPage k) :
    (nextSlot a c.links thisChecksum nextPage k).1 = c.slotAt a k ∧
      WalkAt a c (nextSlot a c.links thisChecksum nextPage k).1
        (nextSlot a c.links thisChecksum nextPage k).2 (k + 1) := by
  by_cases hk : k % checksumsPerPage a = 0
  · -- a page boundary: the first slot of `next_page`, and its first word is the page after
    have hnext := h.boundary hk
    have hslot : nextPage + a.sizeofLong = c.slotAt a k := by
      simp [ChecksumPages.slotAt, hk, hnext]
    simp only [nextSlot, hk, ne_eq, not_true_eq_false, if_false]
    refine ⟨hslot, fun hk' => ?_, fun hk' => ?_⟩
    · rw [succ_div_of_mod_eq_zero hk', hnext, Function.iterate_succ_apply']
    · obtain ⟨hdiv, hmod⟩ := succ_div_mod_of_mod_ne_zero hk'
      refine ⟨by rw [hdiv, hnext, Function.iterate_succ_apply'], ?_⟩
      rw [hslot]
      simp only [ChecksumPages.slotAt, checksumSize, hdiv, hmod, hk]
  · -- within a page: the slot after `this_checksum`
    obtain ⟨hnext, hslot⟩ := h.within hk
    simp only [nextSlot, hk, ne_eq, not_false_eq_true, if_true]
    refine ⟨hslot, fun hk' => ?_, fun hk' => ?_⟩
    · rw [succ_div_of_mod_eq_zero hk', hnext]
    · obtain ⟨hdiv, hmod⟩ := succ_div_mod_of_mod_ne_zero hk'
      refine ⟨by rw [hdiv, hnext], ?_⟩
      rw [hslot]
      simp only [ChecksumPages.slotAt, checksumSize, hdiv, hmod]
      omega

theorem tuxoniceGetNextChecksum_walk {w : ChecksumWalk}
    (h : WalkAt a c w.thisChecksum w.nextPage w.checksumIndex) :
    (tuxoniceGetNextChecksum a true c.links w).2 = c.slotAt a w.checksumIndex ∧
      (tuxoniceGetNextChecksum a true c.links w).1.checksumIndex = w.checksumIndex + 1 ∧
      WalkAt a c (tuxoniceGetNextChecksum a true c.links w).1.thisChecksum
        (tuxoniceGetNextChecksum a true c.links w).1.nextPage (w.checksumIndex + 1) :=
  ⟨h.step.1, rfl, h.step.2⟩

theorem checkChecksumsLoop_eq (sums digest : Nat → Nat) (pfns : List Nat)
    (h : WalkAt a c thisChecksum nextPage k) :
    checkChecksumsLoop a c.links sums digest pfns thisChecksum nextPage k =
      ((pfns.zipIdx k).filter fun q => digest q.1 ≠ sums (c.slotAt a q.2)).map Prod.fst := by
  induction pfns generalizing thisChecksum nextPage k with
  | nil => rfl
  | cons pfn rest ih =>
    obtain ⟨hslot, hwalk⟩ := h.step
    rw [checkChecksumsLoop, ih hwalk, hslot, List.zipIdx_cons, List.filter_cons]
    split <;> simp_all

end Walk

/-! ### The pages of the list -/

/-- The pages are distinct and page aligned, as `toi_get_zeroed_page` hands them out. -/
def PagesOk (a : Arch) (pages : List Nat) : Prop :=
  pages.Nodup ∧ ∀ pg ∈ pages, pg % a.pageSize = 0

instance (a : Arch) (pages : List Nat) : Decidable (PagesOk a pages) :=
  inferInstanceAs (Decidable (pages.Nodup ∧ ∀ pg ∈ pages, pg % a.pageSize = 0))

section Pages

variable {a : Arch} {c : ChecksumPages}

theorem PagesOk.perm {l l' : List Nat} (h : PagesOk a l) (hp : l.Perm l') : PagesOk a l' :=
  ⟨hp.nodup_iff.mp h.1, fun pg hpg => h.2 pg (hp.mem_iff.mpr hpg)⟩

theorem PagesOk.sublist {l l' : List Nat} (h : PagesOk a l') (hs : l.Sublist l') : PagesOk a l :=
  ⟨h.1.sublist hs, fun pg hpg => h.2 pg (hs.subset hpg)⟩

theorem ChecksumPages.mem_pages {i : Nat} (hi : i < c.pagesAllocated) :
    c.links^[i] c.pageList ∈ c.pages :=
  List.mem_map.mpr ⟨i, List.mem_range.mpr hi, rfl⟩

theorem ChecksumPages.pages_push {page : Nat} (h : page ∉ c.pages) :
    (c.push page).pages = page :: c.pages := by
  have hchain : ∀ i ≤ c.pagesAllocated,
      (Function.update c.links page c.pageList)^[i] c.pageList = c.links^[i] c.pageList := by
    intro i hi
    induction i with
    | zero => rfl
    | succ i ih =>
      rw [Function.iterate_succ_apply', Function.iterate_succ_apply', ih (by omega)]
      have hne : c.links^[i] c.pageList ≠ page := fun heq => h (heq ▸ c.mem_pages (by omega))
      exact Function.update_of_ne hne _ _
  simp only [pages, push, List.range_succ_eq_map, List.map_cons, Function.iterate_zero, id_eq,
    List.map_map, List.cons.injEq, true_and]
  refine List.map_congr_left fun i hi => ?_
  simp only [Function.comp_apply, Function.iterate_succ_apply, Function.update_self]
  exact hchain i (Nat.le_of_lt (List.mem_range.mp hi))

theorem allocateChecksumPagesLoop_ok {needed : Nat} {w w' : ChecksumWalk} {c' : ChecksumPages}
    {fresh : List Nat} (hok : PagesOk a (fresh ++ c.pages))
    (h : allocateChecksumPagesLoop needed w fresh c = (c', w', 0)) :
    needed ≤ c'.pagesAllocated ∧ PagesOk a c'.pages ∧ w' = checksumWalkStart c' w := by
  induction fresh generalizing c with
  | nil =>
    unfold allocateChecksumPagesLoop at h
    split_ifs at h with hlt
    · simp [ENOMEM] at h
    · cases h
      exact ⟨Nat.le_of_not_lt hlt, hok, rfl⟩
  | cons page fresh ih =>
    unfold allocateChecksumPagesLoop at h
    split_ifs at h with hlt
    · -- the pushed page is not on the list, which then holds it and the pages it had
      have hnot : page ∉ c.pages := fun hmem =>
        (List.nodup_cons.mp hok.1).1 (List.mem_append_right _ hmem)
      refine ih ?_ h
      rw [ChecksumPages.pages_push hnot]
      exact hok.perm List.perm_middle.symm
    · cases h
      exact ⟨Nat.le_of_not_lt hlt, hok.sublist (List.sublist_append_right _ _), rfl⟩

theorem allocateChecksumPages_ok {size : Nat} {w w' : ChecksumWalk} {c' : ChecksumPages}
    {fresh : List Nat} (hok : PagesOk a (fresh ++ c.pages))
    (h : allocateChecksumPages a true size fresh c w = (c', w', 0)) :
    checksumPagesNeeded a size ≤ c'.pagesAllocated ∧ PagesOk a c'.pages ∧
      w' = checksumWalkStart c' w :=
  allocateChecksumPagesLoop_ok hok h

variable (a)

theorem checksumsPerPage_pos (hpage : a.sizeofLong + checksumSize ≤ a.pageSize) :
    0 < checksumsPerPage a :=
  Nat.div_pos (by omega) (by decide)

theorem le_mul_checksumPagesNeeded (hpage : a.sizeofLong + checksumSize ≤ a.pageSize)
    (size : Nat) : size ≤ checksumsPerPage a * checksumPagesNeeded a size := by
  have hpos := checksumsPerPage_pos a hpage
  have hdiv := Nat.div_add_mod (size + checksumsPerPage a - 1) (checksumsPerPage a)
  have hmod := Nat.mod_lt (size + checksumsPerPage a - 1) hpos
  unfold checksumPagesNeeded
  omega

theorem slot_offset_le (hpage : a.sizeofLong + checksumSize ≤ a.pageSize) (j : Nat) :
    a.sizeofLong + checksumSize * (j % checksumsPerPage a) + checksumSize ≤ a.pageSize := by
  have hmod := Nat.mod_lt j (checksumsPerPage_pos a hpage)
  have hmul : checksumSize * (j % checksumsPerPage a + 1) ≤ checksumSize * checksumsPerPage a :=
    Nat.mul_le_mul_left _ hmod
  have hfit : checksumSize * checksumsPerPage a ≤ a.pageSize - a.sizeofLong :=
    Nat.mul_div_le _ _
  rw [Nat.mul_add, Nat.mul_one] at hmul
  omega

/-- Slot `j` of the first `CHECKSUMS_PER_PAGE * pages_allocated` lies within an allocated page,
after its next-page pointer. -/
theorem slotAt_mem_pages (hpage : a.sizeofLong + checksumSize ≤ a.pageSize) {j : Nat}
    (hj : j < checksumsPerPage a * c.pagesAllocated) :
    ∃ pg ∈ c.pages, pg + a.sizeofLong ≤ c.slotAt a j ∧
      c.slotAt a j + checksumSize ≤ pg + a.pageSize := by
  have hi : j / checksumsPerPage a < c.pagesAllocated :=
    (Nat.div_lt_iff_lt_mul (checksumsPerPage_pos a hpage)).mpr (by rwa [Nat.mul_comm] at hj)
  have hoff := slot_offset_le a hpage j
  refine ⟨_, c.mem_pages hi, ?_, ?_⟩ <;> simp only [ChecksumPages.slotAt] <;> omega

theorem aligned_add_div_mod {pg off : Nat} (hpg : pg % a.pageSize = 0) (hoff : off < a.pageSize) :
    (pg + off) / a.pageSize = pg / a.pageSize ∧ (pg + off) % a.pageSize = off := by
  obtain ⟨m, rfl⟩ := Nat.dvd_of_mod_eq_zero hpg
  have hpos := a.pageSize_pos
  refine ⟨?_, ?_⟩
  · rw [Nat.mul_add_div hpos, Nat.div_eq_of_lt hoff, Nat.mul_div_cancel_left m hpos, Nat.add_zero]
  · rw [Nat.mul_add_mod, Nat.mod_eq_of_lt hoff]

theorem slotAt_inj (hpage : a.sizeofLong + checksumSize ≤ a.pageSize) (hok : PagesOk a c.pages)
    {j j' : Nat} (hj : j < checksumsPerPage a * c.pagesAllocated)
    (hj' : j' < checksumsPerPage a * c.pagesAllocated) (h : c.slotAt a j = c.slotAt a j') :
    j = j' := by
  have hpos := checksumsPerPage_pos a hpage
  have hi : j / checksumsPerPage a < c.pagesAllocated :=
    (Nat.div_lt_iff_lt_mul hpos).mpr (by rwa [Nat.mul_comm] at hj)
  have hi' : j' / checksumsPerPage a < c.pagesAllocated :=
    (Nat.div_lt_iff_lt_mul hpos).mpr (by rwa [Nat.mul_comm] at hj')
  -- the address gives back its page and its offset
  obtain ⟨hdiv, hmod⟩ := aligned_add_div_mod a (hok.2 _ (c.mem_pages hi))
    (show a.sizeofLong + checksumSize * (j % checksumsPerPage a) < a.pageSize by
      have := slot_offset_le a hpage j; unfold checksumSize at *; omega)
  obtain ⟨hdiv', hmod'⟩ := aligned_add_div_mod a (hok.2 _ (c.mem_pages hi'))
    (show a.sizeofLong + checksumSize * (j' % checksumsPerPage a) < a.pageSize by
      have := slot_offset_le a hpage j'; unfold checksumSize at *; omega)
  simp only [ChecksumPages.slotAt, Nat.add_assoc] at h
  rw [h] at hdiv hmod
  have hpg : c.links^[j / checksumsPerPage a] c.pageList =
      c.links^[j' / checksumsPerPage a] c.pageList := by
    have h₁ := Nat.div_add_mod (c.links^[j / checksumsPerPage a] c.pageList) a.pageSize
    have h₂ := Nat.div_add_mod (c.links^[j' / checksumsPerPage a] c.pageList) a.pageSize
    rw [hok.2 _ (c.mem_pages hi), ← hdiv, hdiv'] at h₁
    rw [hok.2 _ (c.mem_pages hi')] at h₂
    omega
  -- the same page of the list is the same index of it
  have hidx : j / checksumsPerPage a = j' / checksumsPerPage a := by
    have hlen : c.pages.length = c.pagesAllocated := by simp [ChecksumPages.pages]
    have hx : j / checksumsPerPage a < c.pages.length := by omega
    have hy : j' / checksumsPerPage a < c.pages.length := by omega
    have heq : c.pages[j / checksumsPerPage a] = c.pages[j' / checksumsPerPage a] := by
      simpa [ChecksumPages.pages] using hpg
    exact hok.1.getElem_inj_iff.mp heq
  have hrem : j % checksumsPerPage a = j' % checksumsPerPage a := by
    rw [hmod'] at hmod
    unfold checksumSize at hmod
    omega
  rw [← Nat.div_add_mod j (checksumsPerPage a), ← Nat.div_add_mod j' (checksumsPerPage a), hidx,
    hrem]

end Pages

/-! ### Writing pageset 2 -/

/-- What the checksum part of the loop reads: the machine, whether the module is enabled, the CPU
each thread runs on, and the digest `tuxonice_calc_checksum` computes of each pfn's page. -/
structure ChecksumEnv where
  arch : Arch
  enabled : Bool
  cpuOf : Nat → Nat
  digest : Nat → Nat

/-- `tuxonice_calc_checksum(page, checksum_locn)`: the digest of the page of `pfn` written at
`checksumLocn`. -/
def tuxoniceCalcChecksum (e : ChecksumEnv) (sums : Nat → Nat) (pfn checksumLocn : Nat) :
    Nat → Nat :=
  if e.enabled then Function.update sums checksumLocn (e.digest pfn) else sums

/-- The loop's state with the checksum statics: the walk, the per-CPU `checksum_locn`, and the
bytes of each slot as one number. -/
structure ChecksumIoState where
  io : IoState
  walk : ChecksumWalk
  checksumLocn : Nat → Nat
  sums : Nat → Nat

/-- `do_rw_loop` as `write_pageset(&pagedir2)` calls it: writing, pageset 2,
`finish_at = pagedir2.size`. -/
def writePageset2Params (size : Nat) : IoParams := ⟨true, 2, size, fun _ => false⟩

/-- The start of `do_rw_loop` in `write_pageset(&pagedir2)`: `pageflags = pageset2_map`. -/
def writePageset2 (pageset2Map pageset1Map : MemoryBitmap) (size threads : Nat) :
    Option IoState :=
  doRwLoopInit (writePageset2Params size) pageset2Map pageset1Map [] threads

variable (p : IoParams) (e : ChecksumEnv) (c : ChecksumPages)

/-- The checksum statics after the locked part of an iteration of thread `t`, from `s` to the loop
state `io`: a pfn of pageset 2 taken gets the next slot, kept in the `checksum_locn` of the
thread's CPU. -/
def lockedChecksum (s : ChecksumIoState) (t : Nat) (io : IoState) : ChecksumIoState :=
  match io.threads[t]? with
  | some (.writing _ _) =>
    if p.ioPageset = 1 then { s with io := io }
    else
      let r := tuxoniceGetNextChecksum e.arch e.enabled c.links s.walk
      ⟨io, r.1, Function.update s.checksumLocn (e.cpuOf t) r.2, s.sums⟩
  | _ => { s with io := io }

/-- The checksum statics after the write of thread `t`: for pageset 2, `tuxonice_calc_checksum`
first digests the page where the `checksum_locn` of the thread's CPU points. -/
def writeChecksum (s : ChecksumIoState) (t : Nat) (io : IoState) : ChecksumIoState :=
  match s.io.threads[t]? with
  | some (.writing _ dataPfn) =>
    if p.ioPageset = 2 then
      { s with io := io, sums := tuxoniceCalcChecksum e s.sums dataPfn (s.checksumLocn (e.cpuOf t)) }
    else { s with io := io }
  | _ => { s with io := io }

/-- What a step of the loop, from `s` to the loop state `io`, does to the checksum statics. -/
def checksumEffect (s : ChecksumIoState) (a : IoAction) (io : IoState) : ChecksumIoState :=
  match a with
  | .enter t | .loopTest t => lockedChecksum p e c s t io
  | .io t => writeChecksum p e s t io
  | _ => { s with io := io }

/-- One step of the loop with the checksum statics. -/
def checksumIoStep (s : ChecksumIoState) (a : IoAction) : Option ChecksumIoState :=
  (ioStep p s.io a).map (checksumEffect p e c s a)

theorem checksumIoStep_eq {s s' : ChecksumIoState} {a : IoAction}
    (h : checksumIoStep p e c s a = some s') :
    ∃ io, ioStep p s.io a = some io ∧ s' = checksumEffect p e c s a io := by
  obtain ⟨io, hio, rfl⟩ := Option.map_eq_some_iff.mp h
  exact ⟨io, hio, rfl⟩

@[simp] theorem io_checksumEffect (s : ChecksumIoState) (a : IoAction) (io : IoState) :
    (checksumEffect p e c s a io).io = io := by
  unfold checksumEffect lockedChecksum writeChecksum
  split <;> repeat' split
  all_goals rfl

theorem length_threads_checksumIoStep {s s' : ChecksumIoState} {a : IoAction}
    (h : checksumIoStep p e c s a = some s') : s'.io.threads.length = s.io.threads.length := by
  obtain ⟨io, hio, rfl⟩ := checksumIoStep_eq p e c h
  rw [io_checksumEffect]
  exact length_threads_ioStep p hio

/-! ### The slots of the pages written -/

section Writer

variable {p : IoParams} {e : ChecksumEnv} {c : ChecksumPages} {P : List Nat} {F k : Nat}
  {s : ChecksumIoState} {t : Nat} {pc : WorkerPc}

/-- The invariant of writing pageset 2 with checksums, `k` pfns having been taken of the pfns `P`
of `pageset2_map`, the first `F` of which `io_map` held at the start. -/
structure SumInv (e : ChecksumEnv) (c : ChecksumPages) (P : List Nat) (F : Nat)
    (s : ChecksumIoState) (k : Nat) : Prop where
  taken_le : k ≤ F
  ioMap_bits : s.io.ioMap.bits = (P.take F).drop k
  ioMap_iter : s.io.ioMap.IterAt 0
  index_eq : s.walk.checksumIndex = k
  walk : WalkAt e.arch c s.walk.thisChecksum s.walk.nextPage k
  writing : ∀ pc ∈ s.io.threads, pc ≠ .reading ∧ pc ≠ .unwanted
  /-- A thread about to write the pfn of rank `j` holds slot `j` in its CPU's `checksum_locn`. -/
  holds : ∀ t w d, s.io.threads[t]? = some (.writing w d) →
    ∃ j < k, P[j]? = some d ∧ s.checksumLocn (e.cpuOf t) = c.slotAt e.arch j
  /-- Only pfns taken have been written. -/
  written : ∀ r ∈ s.io.written, ∃ j < k, P[j]? = some r.2
  /-- The slot of each pfn written holds its digest. -/
  filled : ∀ j d, P[j]? = some d → (some d, d) ∈ s.io.written →
    s.sums (c.slotAt e.arch j) = e.digest d

theorem rank_unique (hP : P.Nodup) {j j' d : Nat} (h : P[j]? = some d) (h' : P[j']? = some d) :
    j = j' := by
  obtain ⟨hj, hd⟩ := List.getElem?_eq_some_iff.mp h
  obtain ⟨hj', hd'⟩ := List.getElem?_eq_some_iff.mp h'
  exact hP.getElem_inj_iff.mp (hd.trans hd'.symm)

theorem getElem?_set_writing {threads : List WorkerPc} {b : WorkerPc}
    (hb : ∀ w d, b ≠ .writing w d) {t' : Nat} {w : Option Nat} {d : Nat}
    (h : (threads.set t b)[t']? = some (.writing w d)) :
    t ≠ t' ∧ threads[t']? = some (.writing w d) := by
  by_cases htt : t = t'
  · subst htt
    rw [List.getElem?_set_self'] at h
    obtain ⟨-, hbw⟩ : (∃ pc, threads[t]? = some pc) ∧ b = .writing w d := by simpa using h
    exact absurd hbw (hb w d)
  · exact ⟨htt, by rwa [List.getElem?_set_ne htt] at h⟩

theorem SumInv.moveTo (hinv : SumInv e c P F s k) {io : IoState} {b : WorkerPc}
    (hb : ∀ w d, b ≠ .writing w d) (hb' : b ≠ .reading ∧ b ≠ .unwanted)
    (hmap : io.ioMap.bits = s.io.ioMap.bits) (hiter : io.ioMap.IterAt 0)
    (hthreads : io.threads = s.io.threads.set t b) (hwritten : io.written = s.io.written) :
    SumInv e c P F { s with io := io } k where
  taken_le := hinv.taken_le
  ioMap_bits := hmap.trans hinv.ioMap_bits
  ioMap_iter := hiter
  index_eq := hinv.index_eq
  walk := hinv.walk
  writing := hthreads ▸ forall_mem_set hinv.writing hb'
  holds t' w d h := by
    rw [hthreads] at h
    exact hinv.holds t' w d (getElem?_set_writing hb h).2
  written := hwritten ▸ hinv.written
  filled := hwritten ▸ hinv.filled

theorem lockedChecksum_of_not_writing {io : IoState}
    (h : ∀ w d, io.threads[t]? ≠ some (.writing w d)) :
    lockedChecksum p e c s t io = { s with io := io } := by
  unfold lockedChecksum
  split
  · rename_i w d hwd
    exact absurd hwd (h w d)
  · rfl

section Steps

variable (hw : p.ioWrite = true) (h2 : p.ioPageset = 2) (he : e.enabled = true)
  (hcpu : Set.InjOn e.cpuOf {t | t < s.io.threads.length}) (hP : P.Nodup) (hF : F ≤ P.length)
  (hpage : e.arch.sizeofLong + checksumSize ≤ e.arch.pageSize) (hok : PagesOk e.arch c.pages)
  (hslots : F ≤ checksumsPerPage e.arch * c.pagesAllocated)

include hw h2 he hcpu hF in
theorem SumInv.take (hinv : SumInv e c P F s k) (hpc : s.io.threads[t]? = some pc)
    (hk : k < F) : SumInv e c P F (lockedChecksum p e c s t (lockedPart p s.io t)) (k + 1) := by
  have hkP : k < P.length := by omega
  have hbits : s.io.ioMap.bits = P[k] :: (P.take F).drop (k + 1) := by
    rw [hinv.ioMap_bits, List.drop_eq_getElem_cons (by simp; omega), List.getElem_take]
  obtain ⟨hnext, hclear, hiter⟩ := s.io.ioMap.nextPfn_clear hinv.ioMap_iter hbits
  have ht : t < s.io.threads.length := (List.getElem?_eq_some_iff.mp hpc).1
  have hwalk : WalkAt e.arch c s.walk.thisChecksum s.walk.nextPage s.walk.checksumIndex := by
    rw [hinv.index_eq]
    exact hinv.walk
  obtain ⟨hslot, hindex, hwalk'⟩ := tuxoniceGetNextChecksum_walk hwalk
  rw [hinv.index_eq] at hslot hindex hwalk'
  have h1 : p.ioPageset ≠ 1 := by omega
  simp only [lockedPart, hw, if_true, hnext, h1, if_false]
  unfold lockedChecksum
  simp only [List.getElem?_set_self ht, h1, if_false, he]
  refine ⟨hk, hclear, hiter, hindex, hwalk', forall_mem_set hinv.writing (by simp), ?_,
    fun r hr => ?_, hinv.filled⟩
  · -- the thread taking the pfn holds its slot; the others keep theirs, on other CPUs
    intro t' w d h
    by_cases htt : t = t'
    · subst htt
      rw [List.getElem?_set_self ht] at h
      obtain ⟨-, rfl⟩ : w = some P[k] ∧ d = P[k] := by simpa using h.symm
      refine ⟨k, Nat.lt_succ_self k, List.getElem?_eq_getElem hkP, ?_⟩
      dsimp only
      rw [Function.update_self, hslot]
    · rw [List.getElem?_set_ne htt] at h
      obtain ⟨j, hj, hPj, hloc⟩ := hinv.holds t' w d h
      have ht' : t' < s.io.threads.length := (List.getElem?_eq_some_iff.mp h).1
      refine ⟨j, by omega, hPj, ?_⟩
      dsimp only
      rw [Function.update_of_ne (hcpu.ne ht' ht (Ne.symm htt)), hloc]
  · obtain ⟨j, hj, hPj⟩ := hinv.written r hr
    exact ⟨j, by omega, hPj⟩

include hw in
theorem SumInv.finish (hinv : SumInv e c P F s k) (hpc : s.io.threads[t]? = some pc)
    (hk : ¬k < F) : SumInv e c P F (lockedChecksum p e c s t (lockedPart p s.io t)) k := by
  have hempty : s.io.ioMap.bits = [] := by
    rw [hinv.ioMap_bits, show k = F by have := hinv.taken_le; omega]
    simp
  have hnext := s.io.ioMap.nextPfn_end (by rw [hempty]; exact hinv.ioMap_iter)
  have ht : t < s.io.threads.length := (List.getElem?_eq_some_iff.mp hpc).1
  simp only [lockedPart, hw, if_true, hnext]
  rw [lockedChecksum_of_not_writing (by simp [List.getElem?_set_self ht])]
  exact hinv.moveTo (by simp) (by simp) rfl (MemoryBitmap.positionReset_iterAt _) rfl rfl

include hw h2 he hcpu hF in
theorem SumInv.locked (hinv : SumInv e c P F s k) (hpc : s.io.threads[t]? = some pc) :
    ∃ k', SumInv e c P F (lockedChecksum p e c s t (lockedPart p s.io t)) k' := by
  by_cases hk : k < F
  · exact ⟨k + 1, hinv.take hw h2 he hcpu hF hpc hk⟩
  · exact ⟨k, hinv.finish hw hpc hk⟩

include h2 he hP hpage hok hslots in
theorem SumInv.io (hinv : SumInv e c P F s k) {w : Option Nat} {d : Nat}
    (hpc : s.io.threads[t]? = some (.writing w d)) :
    SumInv e c P F (writeChecksum p e s t
      { s.io with written := s.io.written ++ [(w, d)], threads := s.io.threads.set t .bottom }) k := by
  obtain ⟨j, hj, hPj, hloc⟩ := hinv.holds t w d hpc
  have hjF : j < checksumsPerPage e.arch * c.pagesAllocated := by
    have := hinv.taken_le
    omega
  unfold writeChecksum
  simp only [hpc, h2, if_true, tuxoniceCalcChecksum, he, hloc]
  refine ⟨hinv.taken_le, hinv.ioMap_bits, hinv.ioMap_iter, hinv.index_eq, hinv.walk,
    forall_mem_set hinv.writing (by simp), ?_, ?_, ?_⟩
  · intro t' w' d' h
    exact hinv.holds t' w' d' (getElem?_set_writing (by simp) h).2
  · intro r hr
    rcases List.mem_append.mp hr with hr | hr
    · exact hinv.written r hr
    · rw [List.mem_singleton.mp hr]
      exact ⟨j, hj, hPj⟩
  · intro j' d' hPj' hmem
    dsimp only at hmem ⊢
    by_cases hjj : j' = j
    · subst hjj
      obtain rfl : d' = d := Option.some.inj (hPj'.symm.trans hPj)
      simp
    · -- another pfn was written before, and its slot is not this one
      have hold : (some d', d') ∈ s.io.written := by
        rcases List.mem_append.mp hmem with hmem | hmem
        · exact hmem
        · obtain ⟨-, rfl⟩ := Prod.mk.inj (List.mem_singleton.mp hmem)
          exact absurd (rank_unique hP hPj' hPj) hjj
      obtain ⟨j'', hj'', hPj''⟩ := hinv.written _ hold
      have hj' : j' < k := rank_unique hP hPj'' hPj' ▸ hj''
      have hne : c.slotAt e.arch j' ≠ c.slotAt e.arch j := fun h =>
        hjj (slotAt_inj e.arch hpage hok (by have := hinv.taken_le; omega) hjF h)
      rw [Function.update_of_ne hne]
      exact hinv.filled j' d' hPj' hold

include hw h2 he hcpu hP hF hpage hok hslots in
/-- Every step of every thread keeps the invariant. -/
theorem SumInv.step (hinv : SumInv e c P F s k) {a : IoAction} {s' : ChecksumIoState}
    (hstep : checksumIoStep p e c s a = some s') : ∃ k', SumInv e c P F s' k' := by
  obtain ⟨io, hio, rfl⟩ := checksumIoStep_eq p e c hstep
  cases a with
  | start t =>
    simp only [ioStep] at hio
    split_ifs at hio with hpc
    cases hio
    exact ⟨k, hinv.moveTo (by simp) (by simp) rfl hinv.ioMap_iter rfl rfl⟩
  | enter t =>
    simp only [ioStep] at hio
    split_ifs at hio with hpc
    cases hio
    exact hinv.locked hw h2 he hcpu hF hpc
  | io t =>
    simp only [ioStep] at hio
    split at hio
    · cases hio
      exact ⟨k, hinv.io h2 he hP hpage hok hslots (by assumption)⟩
    · -- no thread reads in a write pass
      rename_i hpc
      exact absurd rfl (hinv.writing _ (List.mem_of_getElem? hpc)).1
    · cases hio
  | giveBack t =>
    simp only [ioStep] at hio
    split_ifs at hio with hpc
    exact absurd rfl (hinv.writing _ (List.mem_of_getElem? hpc)).2
  | loopTest t =>
    simp only [ioStep] at hio
    split_ifs at hio with hpc hcont
    · cases hio
      exact hinv.locked hw h2 he hcpu hF hpc
    · -- the thread leaves at the loop test
      cases hio
      have ht : t < s.io.threads.length := (List.getElem?_eq_some_iff.mp hpc).1
      refine ⟨k, ?_⟩
      show SumInv e c P F (lockedChecksum p e c s t _) k
      rw [lockedChecksum_of_not_writing (by simp [List.getElem?_set_self ht])]
      exact hinv.moveTo (by simp) (by simp) rfl hinv.ioMap_iter rfl rfl

end Steps

theorem SumInv.init {io : IoState} {threads : Nat} (hbits : io.ioMap.bits = P.take F)
    (hiter : io.ioMap.IterAt 0) (hthreads : io.threads = List.replicate threads .idle)
    (hwritten : io.written = []) (w : ChecksumWalk) (checksumLocn sums : Nat → Nat) :
    SumInv e c P F ⟨io, checksumWalkStart c w, checksumLocn, sums⟩ 0 where
  taken_le := Nat.zero_le F
  ioMap_bits := by simpa using hbits
  ioMap_iter := hiter
  index_eq := rfl
  walk := walkAt_start e.arch c w.thisChecksum
  writing pc hpc := by
    rw [hthreads] at hpc
    simp [List.eq_of_mem_replicate hpc]
  holds t w d h := by
    rw [hthreads] at h
    simp [List.getElem?_replicate] at h
  written r hr := by
    rw [hwritten] at hr
    cases hr
  filled j d _ hmem := by
    rw [hwritten] at hmem
    cases hmem

end Writer

theorem writePageset2_sumInv {a : Arch} (hpage : a.sizeofLong + checksumSize ≤ a.pageSize)
    {pageset2Map pageset1Map : MemoryBitmap} {size : Nat} (hsize : size = pageset2Map.bits.length)
    {c : ChecksumPages} (hok : PagesOk a c.pages)
    (hslots : size ≤ checksumsPerPage a * c.pagesAllocated) (w : ChecksumWalk) (threads : Nat)
    {cpuOf : Nat → Nat} (hcpu : Set.InjOn cpuOf {t | t < threads})
    (digest checksumLocn sums : Nat → Nat) :
    ∃ s₀, writePageset2 pageset2Map pageset1Map size threads = some s₀ ∧
      ∀ s, Reachable (checksumIoStep (writePageset2Params size) ⟨a, true, cpuOf, digest⟩ c)
          ⟨s₀, checksumWalkStart c w, checksumLocn, sums⟩ s →
        ∃ k, SumInv ⟨a, true, cpuOf, digest⟩ c pageset2Map.bits size s k := by
  obtain ⟨ioMap, hbits, hiter, hinit⟩ := @doRwLoopInit_eq (writePageset2Params size)
    pageset2Map pageset1Map [] threads (by simp [writePageset2Params, hsize])
  refine ⟨_, hinit, fun s hs => ?_⟩
  have hinv₀ : SumInv ⟨a, true, cpuOf, digest⟩ c pageset2Map.bits size
      ⟨⟨size, 0, ioMap, pageset1Map.positionReset, [], List.replicate threads .idle, [], [], 0,
        false, false⟩, checksumWalkStart c w, checksumLocn, sums⟩ 0 :=
    SumInv.init hbits hiter rfl rfl w checksumLocn sums
  -- no step adds or removes a thread, so the threads keep their own CPUs
  obtain ⟨-, hinv⟩ := hs.invariant
    (P := fun s => s.io.threads.length = threads ∧
      ∃ k, SumInv ⟨a, true, cpuOf, digest⟩ c pageset2Map.bits size s k)
    ⟨List.length_replicate, 0, hinv₀⟩ fun _ _ _ ⟨hlen, _, hk⟩ hstep =>
      ⟨(length_threads_checksumIoStep _ _ _ hstep).trans hlen,
        hk.step rfl rfl rfl (hlen ▸ hcpu) pageset2Map.nodup_bits (by omega) hpage hok hslots hstep⟩
  exact hinv

/-- Writing pageset 2 with checksums and checking them agree on the slots, for the workers that
`do_rw_loop` runs on any online CPUs and any interleaving of their steps: with `pagedir2.size`
the number of pfns of `pageset2_map` and `allocate_checksum_pages` done, every slot of a pfn lies
in an allocated page after its next-page pointer; `check_checksums` compares the pfn of rank `j`
with slot `j`; and in every state of the loop, a thread about to write the pfn of rank `j` holds
slot `j` in its CPU's `checksum_locn`, and the slot of every pfn written holds its digest. -/
theorem checksum_slots_agree {a : Arch} (hpage : a.sizeofLong + checksumSize ≤ a.pageSize)
    {pageset2Map pageset1Map : MemoryBitmap} {size : Nat} (hsize : size = pageset2Map.bits.length)
    {c c' : ChecksumPages} {w w' : ChecksumWalk} {fresh : List Nat}
    (hok : PagesOk a (fresh ++ c.pages))
    (halloc : allocateChecksumPages a true size fresh c w = (c', w', 0))
    (u : RwLoopCpus) (digest checksumLocn sums : Nat → Nat) :
    (∀ j < size, ∃ pg ∈ c'.pages, pg + a.sizeofLong ≤ c'.slotAt a j ∧
      c'.slotAt a j + checksumSize ≤ pg + a.pageSize) ∧
    (∀ sums' digest' : Nat → Nat, checkChecksums a true c' sums' digest' pageset2Map =
      (pageset2Map.bits.zipIdx.filter fun q => digest' q.1 ≠ sums' (c'.slotAt a q.2)).map
        Prod.fst) ∧
    ∃ s₀, writePageset2 pageset2Map pageset1Map size u.cpus.length = some s₀ ∧
      ∀ s, Reachable (checksumIoStep (writePageset2Params size)
          ⟨a, true, workerCpu u.cpus, digest⟩ c') ⟨s₀, w', checksumLocn, sums⟩ s →
        (∀ t wp d, s.io.threads[t]? = some (.writing wp d) →
          ∃ j, pageset2Map.bits[j]? = some d ∧
            s.checksumLocn (workerCpu u.cpus t) = c'.slotAt a j) ∧
        ∀ j d, pageset2Map.bits[j]? = some d → (some d, d) ∈ s.io.written →
          s.sums (c'.slotAt a j) = digest d := by
  obtain ⟨hneed, hok', rfl⟩ := allocateChecksumPages_ok hok halloc
  have hslots : size ≤ checksumsPerPage a * c'.pagesAllocated :=
    Nat.le_trans (le_mul_checksumPagesNeeded a hpage size) (Nat.mul_le_mul_left _ hneed)
  refine ⟨fun j hj => slotAt_mem_pages a hpage (by omega), fun sums' digest' => ?_, ?_⟩
  · -- `check_checksums` starts its walk at the head of the list
    simp only [checkChecksums, if_true]
    exact checkChecksumsLoop_eq sums' digest' _ (walkAt_start a c' 0)
  · -- the workers run on distinct CPUs, so the invariant holds all along
    obtain ⟨s₀, hinit, hreach⟩ := writePageset2_sumInv hpage hsize hok' hslots w u.cpus.length
      u.injOn_workerCpu digest checksumLocn sums
    refine ⟨s₀, hinit, fun s hs => ?_⟩
    obtain ⟨k, hinv⟩ := hreach s hs
    refine ⟨fun t wp d h => ?_, hinv.filled⟩
    obtain ⟨j, -, hPj, hloc⟩ := hinv.holds t wp d h
    exact ⟨j, hPj, hloc⟩

/-- The list `allocate_checksum_pages` builds from none on an x86-64 machine for two pfns: one
page, at address `4096`. -/
def onePageX86 : ChecksumPages := ⟨4096, 1, Function.update (fun _ => 0) 4096 0⟩

/-- The pfns `3` and `5` of pageset 2. -/
def twoPfns : MemoryBitmap := ⟨[3, 5], by decide, 0⟩

/-- Two online CPUs, the caller bound to CPU 0 and a `ktoi_io` thread on CPU 1. -/
def twoCpus : RwLoopCpus := ⟨[0, 1], by decide, 0, true, fun _ => true, false⟩

theorem checksum_slots_agree_two_cpus :
    Arch.x86_64.sizeofLong + checksumSize ≤ Arch.x86_64.pageSize ∧
      PagesOk Arch.x86_64 ([4096] ++ (⟨0, 0, fun _ => 0⟩ : ChecksumPages).pages) ∧
      allocateChecksumPages Arch.x86_64 true 2 [4096] ⟨0, 0, fun _ => 0⟩ ⟨0, 0, 0⟩ =
        (onePageX86, ⟨0, 4096, 0⟩, 0) ∧
      ∀ j < 2, ∃ pg ∈ onePageX86.pages, pg + Arch.x86_64.sizeofLong ≤ onePageX86.slotAt Arch.x86_64 j ∧
        onePageX86.slotAt Arch.x86_64 j + checksumSize ≤ pg + Arch.x86_64.pageSize :=
  have hpage : Arch.x86_64.sizeofLong + checksumSize ≤ Arch.x86_64.pageSize := by decide
  have hok : PagesOk Arch.x86_64 ([4096] ++ (⟨0, 0, fun _ => 0⟩ : ChecksumPages).pages) := by
    decide
  have halloc : allocateChecksumPages Arch.x86_64 true 2 [4096] ⟨0, 0, fun _ => 0⟩ ⟨0, 0, 0⟩ =
      (onePageX86, ⟨0, 4096, 0⟩, 0) := rfl
  ⟨hpage, hok, halloc, (@checksum_slots_agree Arch.x86_64 hpage twoPfns MemoryBitmap.empty 2 rfl
    ⟨0, 0, fun _ => 0⟩ onePageX86 ⟨0, 0, 0⟩ ⟨0, 4096, 0⟩ [4096] hok halloc twoCpus id
    (fun _ => 0) (fun _ => 0)).1⟩

end TuxOnIceFastboot.Io
