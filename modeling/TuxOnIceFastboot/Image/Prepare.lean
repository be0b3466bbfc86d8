import TuxOnIceFastboot.Image.Flags
import TuxOnIceFastboot.Atomic.Copy
import TuxOnIceFastboot.Lib.MachineInt

/-!
# The destinations of the atomic copy

`update_image` counts the image (`toi_recalculate_image_contents(0)`) and asks
`toi_allocate_extra_pagedir_memory` for `wanted = pagedir1.size + extra_pd1_pages_allowance -
get_lowmem_size(pagedir2)` extra pages, which it marks Nosave and `Pageset1Copy`: the lowmem pages
of pageset 2 and the extra pages are the destinations of the atomic copy, and the allowance is
for pageset 1 growing meanwhile. At the atomic copy, `__toi_post_context_save` has
`check_checksums` mark Resave the pages of pageset 2 that changed since they were written,
counts the image again (`toi_recalculate_image_contents(1)`), which moves those pages to
pageset 1, and gives up when pageset 1 grew by more than the allowance; otherwise
`toi_copy_pageset1` copies.

A lowmem page marked Resave is counted once by that check, as growth, but it also stops being a
destination: the pool shrinks by one page for each. With an allowance of one page and one such
page the check passes and the copy runs out of destinations (`atomic_copy_pool_short`).

The page states are those of `Image.Flags`. The allocator is the list of pages it would hand
out, in order; it stops giving pages when that list runs out. The part of `update_image` after
the extra pages (storage and the header) and the freezing of processes are left out.
-/

namespace TuxOnIceFastboot.Image

open TuxOnIceFastboot.Lib TuxOnIceFastboot.Snapshot TuxOnIceFastboot.Atomic

/-- `toi_allocate_extra_pagedir_memory(extra_pages_needed)` with `extras` allocated before and the
allocator handing out `available`: the extras allocated now, and the value it returns. -/
def toiAllocateExtraPagedirMemory (extraPagesNeeded : Int) (extras available : List Nat) :
    List Nat × Int :=
  let numToAlloc := extraPagesNeeded - extras.length
  if numToAlloc < 1 then (extras, 0)
  else
    -- the allocator stops when a `toi_get_free_pages` fails, `extra_pages_allocated` so far
    let extras := (available.take numToAlloc.toNat).reverse ++ extras
    (extras, extras.length)

/-- The extra pages `fresh` marked Nosave (and no longer free) by
`toi_allocate_extra_pagedir_memory`. -/
def markExtras (page : Nat → PageState) (fresh : List Nat) (pfn : Nat) : PageState :=
  if pfn ∈ fresh then { page pfn with free := false, nosave := true } else page pfn

/-- What the preparation keeps for the atomic copy: the page states, `extras_list` and
`pageset1_copy_map`, and the last count of the image. -/
structure PrepState where
  page : Nat → PageState
  extras : List Nat
  pagedirs : Pagedirs

/-- `wanted` of `update_image`: a `long` sum stored in an `int` (the `long` wrapping first changes
nothing that the `int` keeps). -/
def extraPagesWanted (d : Pagedirs) (extraPd1PagesAllowance : Int) : Int :=
  toInt32 (d.pagedir1Size + extraPd1PagesAllowance - d.pagedir2Lowmem)

/-- `toi_recalculate_image_contents(0)` on the state kept. -/
def PrepState.recalculate (pfns : List Nat) (st : PrepState) : PrepState :=
  { st with pagedirs := toiRecalculateImageContents false pfns st.page st.pagedirs.pageset1CopyMap }

/-- `update_image(0)` over the valid pfns `pfns`, the allocator handing out `available`: the
count of the image, the extra pages, and the final count (the storage between them is left
out). -/
def updateImage (pfns : List Nat) (extraPd1PagesAllowance : Int) (available : List Nat)
    (st : PrepState) : PrepState :=
  let st := st.recalculate pfns
  let wanted := extraPagesWanted st.pagedirs extraPd1PagesAllowance
  if wanted > st.extras.length then
    let (extras, got) := toiAllocateExtraPagedirMemory wanted st.extras available
    let fresh := extras.take (extras.length - st.extras.length)
    let st : PrepState :=
      { page := markExtras st.page fresh
        extras := extras
        pagedirs := { st.pagedirs with
          pageset1CopyMap := fresh.foldl MemoryBitmap.setBit st.pagedirs.pageset1CopyMap } }
    -- "Want %d extra pages for pageset1, got %d.": the early return
    if wanted < got then st else st.recalculate pfns
  else st.recalculate pfns

/-- `check_checksums` with checksums enabled: the pages of pageset 2 that changed since they were
written are marked Resave. -/
def checkChecksums (page : Nat → PageState) (changed : Nat → Bool) (pfn : Nat) : PageState :=
  if (page pfn).pageset2 && changed pfn then { page pfn with resave := true } else page pfn

/-- `__toi_post_context_save`: the pairs `toi_copy_pageset1` copies, or `none` when pageset 1 grew
by more than the allowance (`TOI_EXTRA_PAGES_ALLOW_TOO_SMALL`). -/
def toiPostContextSave (pfns : List Nat) (extraPd1PagesAllowance : Int) (changed : Nat → Bool)
    (st : PrepState) : Option (List (Option Nat × Option Nat)) :=
  let oldPs1Size := st.pagedirs.pagedir1Size
  let d := toiRecalculateImageContents true pfns (checkChecksums st.page changed)
    st.pagedirs.pageset1CopyMap
  let extraPd1PagesUsed : Int := (d.pagedir1Size : Int) - oldPs1Size
  if extraPd1PagesUsed > extraPd1PagesAllowance then none
  else some (toiCopyPageset1 d.pageset1Map d.pageset1CopyMap d.pagedir1Size)

/-! ### A resaved lowmem page -/

/-- Three pages: pfn 0 of pageset 1, pfn 1 a lowmem page of pageset 2, pfn 2 free. -/
def threePages (pfn : Nat) : PageState :=
  if pfn = 0 then ⟨false, false, true, false, false, false⟩
  else if pfn = 1 then ⟨false, false, true, true, false, false⟩
  else ⟨true, false, false, false, false, false⟩

/-- With an allowance of one page, `update_image` wants `1 + 1 - 1 = 1` extra page and gets it
(pfn 2). Pfn 1 changes before the atomic copy: pageset 1 grows by one page, which the check
allows, and the copy map loses pfn 1, so that the second page of pageset 1 has no destination. -/
theorem atomic_copy_pool_short :
    (let st := updateImage [0, 1, 2] 1 [2] ⟨threePages, [], ⟨0, 0, 0, 0, .empty, .empty⟩⟩
     extraPagesWanted st.pagedirs 1 = 1 ∧ st.extras = [2] ∧
       toiPostContextSave [0, 1, 2] 1 (fun pfn => pfn == 1) st =
         some [(some 0, some 2), (some 1, none)]) := by
  refine ⟨?_, ?_, ?_⟩ <;> decide

end TuxOnIceFastboot.Image
