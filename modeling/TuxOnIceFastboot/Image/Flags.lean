import TuxOnIceFastboot.Snapshot.Bitmap

/-!
# Flagging the pages of the image (`flag_image_pages`)

`flag_image_pages` walks every valid pfn, in order, and sorts the pages into the image: free
pages, pages marked Nosave and pages that `saveable_page` refuses are left out; a page of
pageset 2 is counted in `pagedir2`, and a lowmem one is marked as a destination of the atomic
copy (`Pageset1Copy`); a page of pageset 2 marked Resave is also put in pageset 1 and is no
longer a destination; every other page is put in pageset 1. `pageset1_map` is cleared first,
`pageset1_copy_map` is not: the pages that `toi_allocate_extra_pagedir_memory` added to it stay.

What the walk reads of a page is a `PageState`. A free region is skipped page by page here; the
source skips it in one step, which sorts the same pages. The walk is `List.foldl` of
`flagImagePage` over the valid pfns. Over every assignment of page states, `pageset1_map` ends as
the pfns of pageset 1 in order (`flagImagePages_pageset1Map`), and a pfn is in
`pageset1_copy_map` as `mem_copyMap_flagImagePages` says.
-/

namespace TuxOnIceFastboot.Image

open TuxOnIceFastboot.Snapshot

/-- What `flag_image_pages` reads of a page. -/
structure PageState where
  /-- In a free region (`PageNosaveFree`). -/
  free : Bool
  /-- `PageNosave`. -/
  nosave : Bool
  /-- `saveable_page` (or `saveable_highmem_page`) returns the page. -/
  saveable : Bool
  /-- `PagePageset2`. -/
  pageset2 : Bool
  /-- In a highmem zone. -/
  highmem : Bool
  /-- `PageResave`. -/
  resave : Bool
  deriving DecidableEq, Repr

namespace PageState

/-- A page the walk puts in the image. -/
def counted (pg : PageState) : Bool := !pg.free && !pg.nosave && pg.saveable

/-- A page of pageset 1: counted, and not of pageset 2 unless it is marked Resave. -/
def inPageset1 (pg : PageState) : Bool := pg.counted && (!pg.pageset2 || pg.resave)

/-- A page of pageset 2 that the walk counts. -/
def inPageset2 (pg : PageState) : Bool := pg.counted && pg.pageset2

end PageState

/-- The sizes of the two pagedirs and the two maps `flag_image_pages` computes. -/
structure Pagedirs where
  pagedir1Size : Nat
  pagedir1Highmem : Nat
  pagedir2Size : Nat
  pagedir2Highmem : Nat
  pageset1Map : MemoryBitmap
  pageset1CopyMap : MemoryBitmap

/-- The body of the loop of `flag_image_pages` for one valid pfn. -/
def flagImagePage (page : Nat → PageState) (d : Pagedirs) (pfn : Nat) : Pagedirs :=
  let pg := page pfn
  let highmem := if pg.highmem then 1 else 0
  if pg.free then d
  else if pg.nosave then d
  else if !pg.saveable then d
  else if pg.pageset2 then
    let d : Pagedirs :=
      { d with
        pagedir2Size := d.pagedir2Size + 1
        pagedir2Highmem := d.pagedir2Highmem + highmem
        pageset1CopyMap :=
          if pg.highmem then d.pageset1CopyMap else d.pageset1CopyMap.setBit pfn }
    if pg.resave then
      { d with
        pageset1Map := d.pageset1Map.setBit pfn
        pageset1CopyMap := d.pageset1CopyMap.clearBit pfn
        pagedir1Size := d.pagedir1Size + 1
        pagedir1Highmem := d.pagedir1Highmem + highmem }
    else d
  else
    { d with
      pagedir1Size := d.pagedir1Size + 1
      pageset1Map := d.pageset1Map.setBit pfn
      pagedir1Highmem := d.pagedir1Highmem + highmem }

/-- `flag_image_pages(atomic_copy)` over the valid pfns `pfns`, `pageset1_copy_map` holding
`pageset1CopyMap` before. -/
def flagImagePages (pfns : List Nat) (page : Nat → PageState) (pageset1CopyMap : MemoryBitmap) :
    Pagedirs :=
  pfns.foldl (flagImagePage page) ⟨0, 0, 0, 0, MemoryBitmap.empty, pageset1CopyMap⟩

/-- `toi_recalculate_image_contents(atomic_copy)`: outside the atomic copy, the copy marks of the
pages of pageset 2 are cleared first. The marking of pageset 2 itself is the input `page`. -/
def toiRecalculateImageContents (atomicCopy : Bool) (pfns : List Nat) (page : Nat → PageState)
    (pageset1CopyMap : MemoryBitmap) : Pagedirs :=
  if atomicCopy then flagImagePages pfns page pageset1CopyMap
  else
    flagImagePages pfns page
      ((pfns.filter fun pfn => (page pfn).pageset2).foldl MemoryBitmap.clearBit pageset1CopyMap)

/-- `get_lowmem_size(pagedir2)`. -/
def Pagedirs.pagedir2Lowmem (d : Pagedirs) : Nat := d.pagedir2Size - d.pagedir2Highmem

/-! ### One page -/

section Step

variable (page : Nat → PageState) (d : Pagedirs) (pfn : Nat)

theorem flagImagePage_pageset1Map :
    (flagImagePage page d pfn).pageset1Map =
      if (page pfn).inPageset1 then d.pageset1Map.setBit pfn else d.pageset1Map := by
  unfold flagImagePage PageState.inPageset1 PageState.counted
  generalize page pfn = pg
  rcases pg with ⟨_ | _, _ | _, _ | _, _ | _, _ | _, _ | _⟩ <;> rfl

theorem flagImagePage_pagedir1Size :
    (flagImagePage page d pfn).pagedir1Size =
      d.pagedir1Size + if (page pfn).inPageset1 then 1 else 0 := by
  unfold flagImagePage PageState.inPageset1 PageState.counted
  generalize page pfn = pg
  rcases pg with ⟨_ | _, _ | _, _ | _, _ | _, _ | _, _ | _⟩ <;> rfl

theorem mem_copyMap_flagImagePage (x : Nat) :
    x ∈ (flagImagePage page d pfn).pageset1CopyMap.bits ↔
      if x = pfn ∧ (page pfn).inPageset2 then
        !(page pfn).resave ∧ (!(page pfn).highmem ∨ x ∈ d.pageset1CopyMap.bits)
      else x ∈ d.pageset1CopyMap.bits := by
  unfold flagImagePage PageState.inPageset2 PageState.counted
  generalize page pfn = pg
  by_cases hx : x = pfn
  · subst hx
    rcases pg with ⟨_ | _, _ | _, _ | _, _ | _, _ | _, _ | _⟩ <;> simp
  · rcases pg with ⟨_ | _, _ | _, _ | _, _ | _, _ | _, _ | _⟩ <;> simp [hx]

end Step

/-! ### The walk -/

section Walk

variable (page : Nat → PageState)

theorem foldl_pageset1Map {pfns : List Nat} (hsorted : pfns.Pairwise (· < ·)) {d : Pagedirs}
    (hd : ∀ y ∈ d.pageset1Map.bits, ∀ x ∈ pfns, y < x) :
    (pfns.foldl (flagImagePage page) d).pageset1Map.bits =
      d.pageset1Map.bits ++ pfns.filter fun x => (page x).inPageset1 := by
  induction pfns generalizing d with
  | nil => simp
  | cons pfn pfns ih =>
    rw [List.pairwise_cons] at hsorted
    have hnext : ∀ y ∈ (flagImagePage page d pfn).pageset1Map.bits, ∀ x ∈ pfns, y < x := by
      intro y hy x hx
      rw [flagImagePage_pageset1Map] at hy
      split_ifs at hy
      · rcases MemoryBitmap.mem_setBit.mp hy with rfl | hy
        · exact hsorted.1 x hx
        · exact hd y hy x (List.mem_cons_of_mem _ hx)
      · exact hd y hy x (List.mem_cons_of_mem _ hx)
    rw [List.foldl_cons, ih hsorted.2 hnext, flagImagePage_pageset1Map, List.filter_cons]
    split_ifs with h
    · -- the new pfn comes after every pfn set before
      show insertPfn pfn d.pageset1Map.bits ++ _ = _
      rw [insertPfn_of_lt fun y hy => hd y hy pfn List.mem_cons_self, List.append_assoc]
      rfl
    · rfl

theorem foldl_pagedir1Size (pfns : List Nat) (d : Pagedirs) :
    (pfns.foldl (flagImagePage page) d).pagedir1Size =
      d.pagedir1Size + (pfns.filter fun x => (page x).inPageset1).length := by
  induction pfns generalizing d with
  | nil => simp
  | cons pfn pfns ih =>
    rw [List.foldl_cons, ih, flagImagePage_pagedir1Size, List.filter_cons]
    split_ifs
    · rw [List.length_cons]
      omega
    · omega

theorem mem_copyMap_foldl {pfns : List Nat} (hnodup : pfns.Nodup) (d : Pagedirs) (x : Nat) :
    x ∈ (pfns.foldl (flagImagePage page) d).pageset1CopyMap.bits ↔
      if x ∈ pfns ∧ (page x).inPageset2 then
        !(page x).resave ∧ (!(page x).highmem ∨ x ∈ d.pageset1CopyMap.bits)
      else x ∈ d.pageset1CopyMap.bits := by
  induction pfns generalizing d with
  | nil => simp
  | cons pfn pfns ih =>
    rw [List.nodup_cons] at hnodup
    rw [List.foldl_cons, ih hnodup.2, mem_copyMap_flagImagePage]
    by_cases hx : x = pfn
    · -- the pfn walked now is walked once
      subst hx
      simp [hnodup.1]
    · simp [hx]

end Walk

/-- `pageset1_map` after `flag_image_pages`: the pfns of pageset 1, in order. -/
theorem flagImagePages_pageset1Map {pfns : List Nat} (hsorted : pfns.Pairwise (· < ·))
    (page : Nat → PageState) (pageset1CopyMap : MemoryBitmap) :
    (flagImagePages pfns page pageset1CopyMap).pageset1Map.bits =
      pfns.filter fun x => (page x).inPageset1 := by
  rw [flagImagePages, foldl_pageset1Map page hsorted (fun y hy => by simp [MemoryBitmap.empty] at hy)]
  rfl

theorem flagImagePages_pagedir1Size {pfns : List Nat} (hsorted : pfns.Pairwise (· < ·))
    (page : Nat → PageState) (pageset1CopyMap : MemoryBitmap) :
    (flagImagePages pfns page pageset1CopyMap).pagedir1Size =
      (flagImagePages pfns page pageset1CopyMap).pageset1Map.bits.length := by
  rw [flagImagePages_pageset1Map hsorted, flagImagePages, foldl_pagedir1Size]
  exact Nat.zero_add _

theorem flagImagePages_disjoint {pfns : List Nat} (hsorted : pfns.Pairwise (· < ·))
    (page : Nat → PageState) {pageset1CopyMap : MemoryBitmap}
    (hcopy : ∀ x ∈ pageset1CopyMap.bits, x ∈ pfns → (page x).inPageset1 → (page x).pageset2) :
    ∀ x ∈ (flagImagePages pfns page pageset1CopyMap).pageset1CopyMap.bits,
      x ∉ (flagImagePages pfns page pageset1CopyMap).pageset1Map.bits := by
  intro x hx hx1
  rw [flagImagePages_pageset1Map hsorted, List.mem_filter] at hx1
  rw [flagImagePages, mem_copyMap_foldl page (hsorted.imp Nat.ne_of_lt)] at hx
  have h1 := hx1.2
  unfold PageState.inPageset1 PageState.inPageset2 at *
  split_ifs at hx with h
  · -- a page of pageset 2 in pageset 1 is marked Resave, and so no destination
    simp_all
  · have := hcopy x hx hx1.1 h1
    simp_all

end TuxOnIceFastboot.Image
