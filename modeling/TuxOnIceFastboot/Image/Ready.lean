import TuxOnIceFastboot.Image.Prepare
import TuxOnIceFastboot.Base

/-!
# When the image is ready (`image_not_ready`)

`toi_prepare_image` tries at most `MAX_TRIES` times to eat memory and update the image, and
succeeds when `image_not_ready(0)` is false: nothing is still to be freed (`amount_needed(0) <= 0`)
and the storage allocated covers `main_storage_needed(1, 1)`. The quantities are `long`s, and
each expression is computed in `long` arithmetic, which wraps on overflow (`toSigned a.longBits`);
`image_size_limit << 8` is an `int`. What else they read of the system (free memory, the modules'
needs, the storage) is an `ImageCounts`.

Success says nothing of the extra pages: the one test of a shortfall is the early return of
`update_image`, whose comparison `wanted < got` is the wrong way round, and a huge
`extra_pd1_pages_allowance` wraps the sums that should have asked for memory
(`prepare_image_extra_pages_short`). What success does ensure, of the values the machine
computes, is `image_ready_spec`.
-/

namespace TuxOnIceFastboot.Image

open TuxOnIceFastboot.Lib

/-- `MIN_FREE_RAM`. -/
def minFreeRam : Int := 100

/-- What `image_not_ready` reads besides the pagedirs and the extra pages. -/
structure ImageCounts where
  /-- `real_nr_free_low_pages()`. -/
  freeLow : Int
  /-- `real_nr_free_high_pages()`. -/
  freeHigh : Int
  /-- `toi_memory_for_modules(0)`. -/
  memoryForModules : Int
  storageAvailable : Int
  mainStorageAllocated : Int
  /-- `toi_expected_compression_ratio()`. -/
  expectedCompressionRatio : Int
  headerStorageNeeded : Int
  imageSizeLimit : Int

/-- `get_lowmem_size(pagedir1)`. -/
def Pagedirs.pagedir1Lowmem (d : Pagedirs) : Nat := d.pagedir1Size - d.pagedir1Highmem

section Sizes

variable (a : Arch) (d : Pagedirs) (extraPd1PagesAllowance extraPagesAllocated : Int)
  (c : ImageCounts)

/-- `DIV_ROUND_UP(n, d)` on `long`s: C division truncates toward zero. -/
def divRoundUpLong (n k : Int) : Int := Int.tdiv (toSigned a.longBits (n + k - 1)) k

/-- `main_storage_needed(use_ecr, ignore_extra_pd1_allow)`. -/
def mainStorageNeeded (useEcr ignoreExtraPd1Allow : Bool) : Int :=
  Int.tdiv (toSigned a.longBits
    ((d.pagedir1Size + d.pagedir2Size + if ignoreExtraPd1Allow then 0 else extraPd1PagesAllowance) *
      if useEcr then c.expectedCompressionRatio else 100)) 100

/-- `highpages_ps1_to_free()`. -/
def highpagesPs1ToFree : Int :=
  max 0 (toSigned a.longBits
    (divRoundUpLong a ((d.pagedir1Highmem : Int) - d.pagedir2Highmem) 2 - c.freeHigh))

/-- `lowpages_ps1_to_free()`. -/
def lowpagesPs1ToFree : Int :=
  max 0 (divRoundUpLong a (d.pagedir1Lowmem + extraPd1PagesAllowance + minFreeRam +
    c.memoryForModules - d.pagedir2Lowmem - c.freeLow - extraPagesAllocated) 2)

/-- `current_image_size()`. -/
def currentImageSize : Int :=
  toSigned a.longBits (d.pagedir1Size + d.pagedir2Size + c.headerStorageNeeded)

/-- `storage_still_required()`. -/
def storageStillRequired : Int :=
  max 0 (toSigned a.longBits (mainStorageNeeded a d extraPd1PagesAllowance c true true -
    c.storageAvailable))

/-- `ram_still_required()`. -/
def ramStillRequired : Int :=
  max 0 (toSigned a.longBits
    (minFreeRam + c.memoryForModules - c.freeLow + 2 * extraPd1PagesAllowance))

/-- `any_to_free(use_image_size_limit)`. -/
def anyToFree (useImageSizeLimit : Bool) : Int :=
  let userLimit :=
    if useImageSizeLimit && decide (c.imageSizeLimit > 0) then
      max 0 (toSigned a.longBits
        (currentImageSize a d c - toInt32 (c.imageSizeLimit * 2 ^ 8)))
    else 0
  max (max userLimit (storageStillRequired a d extraPd1PagesAllowance c))
    (ramStillRequired a extraPd1PagesAllowance c)

/-- `amount_needed(use_image_size_limit)`. -/
def amountNeeded (useImageSizeLimit : Bool) : Int :=
  max (toSigned a.longBits (highpagesPs1ToFree a d c +
      lowpagesPs1ToFree a d extraPd1PagesAllowance extraPagesAllocated c))
    (anyToFree a d extraPd1PagesAllowance c useImageSizeLimit)

/-- `image_not_ready(use_image_size_limit)`. -/
def imageNotReady (useImageSizeLimit : Bool) : Bool :=
  decide (amountNeeded a d extraPd1PagesAllowance extraPagesAllocated c useImageSizeLimit > 0) ||
    decide (c.mainStorageAllocated < mainStorageNeeded a d extraPd1PagesAllowance c true true)

/-- What `toi_prepare_image` returns after its loop: `image_not_ready(0)`, or else what
`allocate_checksum_pages` returns (0 with checksums disabled). -/
def toiPrepareImageResult (allocateChecksumPages : Int) : Int :=
  if imageNotReady a d extraPd1PagesAllowance extraPagesAllocated c false then 1
  else allocateChecksumPages

theorem ramStillRequired_nonneg : 0 ≤ ramStillRequired a extraPd1PagesAllowance c := by
  simp only [ramStillRequired]
  omega

theorem ramStillRequired_le_anyToFree (useImageSizeLimit : Bool) :
    ramStillRequired a extraPd1PagesAllowance c ≤
      anyToFree a d extraPd1PagesAllowance c useImageSizeLimit := by
  simp only [anyToFree]
  omega

theorem anyToFree_le_amountNeeded (useImageSizeLimit : Bool) :
    anyToFree a d extraPd1PagesAllowance c useImageSizeLimit ≤
      amountNeeded a d extraPd1PagesAllowance extraPagesAllocated c useImageSizeLimit := by
  simp only [amountNeeded]
  omega

/-- Success ensures, of the values the machine computes, that the storage allocated covers
`main_storage_needed(1, 1)`, that `ram_still_required()` is 0 and that `amount_needed(0) <= 0`. -/
theorem image_ready_spec
    (h : imageNotReady a d extraPd1PagesAllowance extraPagesAllocated c false = false) :
    mainStorageNeeded a d extraPd1PagesAllowance c true true ≤ c.mainStorageAllocated ∧
      ramStillRequired a extraPd1PagesAllowance c = 0 ∧
      amountNeeded a d extraPd1PagesAllowance extraPagesAllocated c false ≤ 0 := by
  simp only [imageNotReady, Bool.or_eq_false_iff, decide_eq_false_iff_not] at h
  obtain ⟨hamount, hstorage⟩ := h
  have hram := ramStillRequired_le_anyToFree a d extraPd1PagesAllowance c false
  have hany := anyToFree_le_amountNeeded a d extraPd1PagesAllowance extraPagesAllocated c false
  have hnonneg := ramStillRequired_nonneg a extraPd1PagesAllowance c
  exact ⟨by omega, by omega, by omega⟩

end Sizes

/-! ### Success with pages missing -/

/-- Two ways to succeed without the extra pages `update_image` wants. With pageset 1 and pageset 2
one lowmem page each and an allowance of one page, `update_image` wants one extra page; the
allocator has none, and as `wanted < got` is false it goes on. With an allowance of `LONG_MAX`,
`wanted` narrows to 0, and `lowpages_ps1_to_free()` and `ram_still_required()` wrap below 0,
although `MIN_FREE_RAM + toi_memory_for_modules(0) - real_nr_free_low_pages() +
2 * extra_pd1_pages_allowance` is positive. Either way `image_not_ready` is false for both
arguments (so that `eat_memory` eats nothing and the loop ends after the first try) and
`toi_prepare_image` returns what `allocate_checksum_pages()` does, while
`extra_pages_allocated + get_lowmem_size(pagedir2) < pagedir1.size + extra_pd1_pages_allowance`. -/
theorem prepare_image_extra_pages_short :
    (let st := updateImage [0, 1, 2] 1 [] ⟨threePages, [], ⟨0, 0, 0, 0, .empty, .empty⟩⟩
     let c : ImageCounts := ⟨1000, 0, 0, 1000, 2, 100, 1, 0⟩
     extraPagesWanted st.pagedirs 1 = 1 ∧ st.extras = [] ∧
       imageNotReady .x86_64 st.pagedirs 1 st.extras.length c true = false ∧
       toiPrepareImageResult .x86_64 st.pagedirs 1 st.extras.length c 0 = 0 ∧
       (st.extras.length : Int) + st.pagedirs.pagedir2Lowmem < st.pagedirs.pagedir1Size + 1) ∧
    (let longMax : Int := 2 ^ 63 - 1
     let st := updateImage [0, 2] longMax [] ⟨threePages, [], ⟨0, 0, 0, 0, .empty, .empty⟩⟩
     let c : ImageCounts := ⟨100, 0, 0, 1000, 1, 100, 1, 0⟩
     extraPagesWanted st.pagedirs longMax = 0 ∧ st.extras = [] ∧
       imageNotReady .x86_64 st.pagedirs longMax st.extras.length c true = false ∧
       toiPrepareImageResult .x86_64 st.pagedirs longMax st.extras.length c 0 = 0 ∧
       (st.extras.length : Int) + st.pagedirs.pagedir2Lowmem < st.pagedirs.pagedir1Size + longMax ∧
       0 < minFreeRam + c.memoryForModules - c.freeLow + 2 * longMax) := by
  refine ⟨⟨?_, ?_, ?_, ?_, ?_⟩, ⟨?_, ?_, ?_, ?_, ?_, ?_⟩⟩ <;> decide

end TuxOnIceFastboot.Image
