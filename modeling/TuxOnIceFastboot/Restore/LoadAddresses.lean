import TuxOnIceFastboot.Image.Flags
import TuxOnIceFastboot.Restore.Lookup
import TuxOnIceFastboot.Lib.Indexed
import TuxOnIceFastboot.Lib.Run
import TuxOnIceFastboot.Base

/-!
# Where pageset 1 is loaded (`toi_get_pageset1_load_addresses`)

Before pageset 1 is read back, `toi_get_pageset1_load_addresses` (`tuxonice_pagedir.c`) decides,
for every page of pageset 1, whether its data can be read straight into it or must be read into a
free page and copied over by the atomic restore, and builds the pbes of those copies.
With interrupts and the other CPUs off it duplicates `pageset1_map` twice, takes the first pbe
pages from `___toi_get_nonconflicting_page`, and allocates every page it can, marking each in
`pageset1_copy_map`. A first walk over that map counts the pages of pageset 1 it got
(`load_direct`: they are loaded in place, unless `TOI_NO_DIRECT_LOAD` frees them) and the others,
per zone. The `int` counters `high_to_free` and `low_to_free` say how many of the others are
surplus, after highmem copies that do not fit in highmem pages are moved to lowmem pages. A second
walk frees the surplus pages, the first ones of each zone, and pairs every page it keeps with the
next pfn of a duplicate map that needs a copy, making a pbe on `restore_highmem_pblist` or on
`restore_pblist`; `get_next_pbe` takes a new pbe page when the next pbe would not fit.

A map is walked in increasing pfn order (`Snapshot.MemoryBitmap`), so a walk is a fold over its
pfns; a walk that clears the pfn it stands on visits the same pfns. The pbes of a list are kept
as the list in link order, which is the order they are made; how they lie in pbe pages is left to
the slots and pages the state records. `toi_alloc_page` is an input: the list of pages the
allocate-everything loop gets, and a list of the pages it hands out afterwards, to
`___toi_get_nonconflicting_page`, which passes over and later frees the pages of pageset 1 among
them. `BUG_ON`, and a write through a `NULL` pbe, stop the kernel: the model returns `none`.

The second walk keeps `LoopInv`: each list holds the first of the pfns that need a pbe on it, and
what its duplicate map still holds of them is what the counters leave for the pages ahead. So,
with the sizes the pagedir records, the walk never runs out of original pfns, and it runs to its
end while the allocator has a page for every pbe (`LoopInv.run_ok`). When the pages it got
suffice (`EnoughPages`), a return of `0` means that every page of pageset 1 not loaded in place
has one pbe, on the list of its zone, in pfn order, into a distinct page it allocated outside
pageset 1 (`load_addresses_complete`). When the lowmem pages are too few, `low_to_free` is
negative, which C reads as true: every lowmem page is freed, no lowmem pbe is made, and the
function still returns `0` (`load_addresses_short_of_pages`). When `get_next_pbe` finds no page,
the function returns `-ENOMEM` from inside the loop, past `out:`.
-/

namespace TuxOnIceFastboot.Restore

open TuxOnIceFastboot.Snapshot TuxOnIceFastboot.Image TuxOnIceFastboot.Lib

/-- What the function reads of the machine besides the pagedir and the allocator. -/
structure LoadEnv where
  /-- `PageHighMem(pfn_to_page(pfn))`. -/
  pageHighMem : Nat → Bool
  /-- `test_action_state(TOI_NO_DIRECT_LOAD)`. -/
  noDirectLoad : Bool

/-- A pbe of `restore_pblist` or `restore_highmem_pblist`: the page it restores and the page the
copy is loaded into. -/
structure LoadPbe where
  origAddress : Nat
  address : Nat
  deriving DecidableEq, Repr

/-- What `toi_alloc_page` still hands out to `___toi_get_nonconflicting_page`, and the chain
`first_conflicting_page` of the pages of pageset 1 it handed out. -/
structure PageSupply where
  alloc : List Nat
  conflicting : List Nat
  deriving DecidableEq, Repr

/-- `load_direct(page)`: the page is loaded in place. -/
def loadDirect (env : LoadEnv) (pageset1CopyMap : MemoryBitmap) (pfn : Nat) : Bool :=
  !env.noDirectLoad && pageset1CopyMap.testBit pfn

/-- `___toi_get_nonconflicting_page`: pages of pageset 1 are chained on
`first_conflicting_page` and passed over; `none` when the allocator fails. -/
def getNonconflictingPage (pageset1Map : MemoryBitmap) : List Nat → List Nat → Option Nat × PageSupply
  | [], conflicting => (none, ⟨[], conflicting⟩)
  | p :: ps, conflicting =>
    if pageset1Map.testBit p then getNonconflictingPage pageset1Map ps (p :: conflicting)
    else (some p, ⟨ps, conflicting⟩)

/-- `sizeof(struct pbe)`: three pointers. -/
def sizeofPbe (a : Arch) : Nat := 3 * a.sizeofLong

/-- `get_next_pbe` after the pbe in slot `slot` of the pbe page `page`: the page and slot of the
next pbe, a new page when a pbe more would not fit whole in this one; `none` is
`ERR_PTR(-ENOMEM)`. The pbe pointer is `page_address(page) + slot * sizeof(struct pbe)`, so its
offset in the page is `slot * sizeof(struct pbe)`. -/
def getNextPbe (a : Arch) (pageset1Map : MemoryBitmap) (page slot : Nat) (s : PageSupply) :
    Option (Nat × Nat) × PageSupply :=
  if a.pageSize < slot * sizeofPbe a % a.pageSize + 2 * sizeofPbe a then
    match getNonconflictingPage pageset1Map s.alloc s.conflicting with
    | (some newPage, s') => (some (newPage, 0), s')
    | (none, s') => (none, s')
  else (some (page, slot + 1), s)

/-- The do-while of the pbe loop that takes pfns from a duplicate of `pageset1_map` until one that
`skip` does not pass over: that pfn and the pfns after it; `none` when the map ends first
(`BUG_ON(orig_pfn == BM_END_OF_MAP)`). -/
def nextOrig (skip : Nat → Bool) : List Nat → Option (Nat × List Nat)
  | [] => none
  | p :: ps => if skip p then nextOrig skip ps else some (p, ps)

/-! ### The first walk: counting -/

/-- The counters of the first walk over `pageset1_copy_map`, with the map, which it clears of the
pages of pageset 1 under `TOI_NO_DIRECT_LOAD`, and the pages it frees. -/
structure CountLoop where
  pageset1CopyMap : MemoryBitmap
  freed : List Nat
  highDirect : Nat
  lowDirect : Nat
  highallocd : Nat
  lowallocd : Nat

/-- The body of the first walk for one pfn. -/
def countStep (env : LoadEnv) (pageset1Map : MemoryBitmap) (c : CountLoop) (pfn : Nat) :
    CountLoop :=
  let isHigh := env.pageHighMem pfn
  if pageset1Map.testBit pfn then
    if env.noDirectLoad then
      { c with pageset1CopyMap := c.pageset1CopyMap.clearBit pfn, freed := c.freed ++ [pfn] }
    else if isHigh then { c with highDirect := c.highDirect + 1 }
    else { c with lowDirect := c.lowDirect + 1 }
  else if isHigh then { c with highallocd := c.highallocd + 1 }
  else { c with lowallocd := c.lowallocd + 1 }

/-! ### The second walk: freeing and pairing -/

/-- The locals and globals the second walk changes. -/
structure PbeLoop where
  pageset1CopyMap : MemoryBitmap
  highToFree : Int
  lowToFree : Int
  lowPagesForHighmem : Int
  /-- The pfns `memory_bm_next_pfn(&dup_map1)` has still to return. -/
  dupMap1 : List Nat
  /-- The pfns `memory_bm_next_pfn(&dup_map2)` has still to return. -/
  dupMap2 : List Nat
  highPbePage : Option Nat
  lastHighPbePage : Option Nat
  /-- The slot of `this_high_pbe` in `high_pbe_page`. -/
  highSlot : Nat
  lowPbePage : Nat
  /-- The slot of `this_low_pbe` in `low_pbe_page`. -/
  lowSlot : Nat
  restoreHighmemPblist : List LoadPbe
  restorePblist : List LoadPbe
  supply : PageSupply
  freed : List Nat

/-- How the second walk stops early. -/
inductive LoopStop
  /-- `BUG_ON`, or a write through a `NULL` `this_high_pbe`. -/
  | bug
  /-- `get_next_pbe` failed: `return -ENOMEM` from inside the loop. -/
  | noMemory (st : PbeLoop)

namespace PbeLoop

/-- A surplus page: `ClearPagePageset1Copy`, `toi__free_page` and one less to free. -/
def freePage (st : PbeLoop) (pfn : Nat) (isHigh : Bool) : PbeLoop :=
  { st with
    pageset1CopyMap := st.pageset1CopyMap.clearBit pfn
    freed := st.freed ++ [pfn]
    highToFree := if isHigh then st.highToFree - 1 else st.highToFree
    lowToFree := if isHigh then st.lowToFree else st.lowToFree - 1 }

end PbeLoop

/-- A pbe on `restore_highmem_pblist` for the page `pfn`, highmem or one of the lowmem pages
lent to highmem copies. -/
def addHighPbe (a : Arch) (env : LoadEnv) (pageset1Map : MemoryBitmap) (st : PbeLoop) (pfn : Nat)
    (isHigh : Bool) : Except LoopStop PbeLoop :=
  let lowPagesForHighmem := if isHigh then st.lowPagesForHighmem else st.lowPagesForHighmem - 1
  match nextOrig (fun p => !env.pageHighMem p || loadDirect env st.pageset1CopyMap p) st.dupMap1,
    st.highPbePage with
  | some (orig, dupMap1), some page =>
    let st := { st with
      lowPagesForHighmem := lowPagesForHighmem
      dupMap1 := dupMap1
      restoreHighmemPblist := st.restoreHighmemPblist ++ [LoadPbe.mk orig pfn]
      lastHighPbePage := some page }
    match getNextPbe a pageset1Map page st.highSlot st.supply with
    | (some (page, slot), s) => .ok { st with highPbePage := some page, highSlot := slot, supply := s }
    | (none, s) => .error (.noMemory { st with supply := s })
  | _, _ => .error .bug

/-- A pbe on `restore_pblist` for the lowmem page `pfn`. -/
def addLowPbe (a : Arch) (env : LoadEnv) (pageset1Map : MemoryBitmap) (st : PbeLoop) (pfn : Nat) :
    Except LoopStop PbeLoop :=
  match nextOrig (fun p => env.pageHighMem p || loadDirect env st.pageset1CopyMap p) st.dupMap2 with
  | some (orig, dupMap2) =>
    let st := { st with dupMap2 := dupMap2, restorePblist := st.restorePblist ++ [LoadPbe.mk orig pfn] }
    match getNextPbe a pageset1Map st.lowPbePage st.lowSlot st.supply with
    | (some (page, slot), s) => .ok { st with lowPbePage := page, lowSlot := slot, supply := s }
    | (none, s) => .error (.noMemory { st with supply := s })
  | none => .error .bug

/-- The body of the second walk for one pfn of `pageset1_copy_map`. The counters are C `int`s
tested for being non-zero, so a negative one counts as true. -/
def pbeStep (a : Arch) (env : LoadEnv) (pageset1Map : MemoryBitmap) (st : PbeLoop) (pfn : Nat) :
    Except LoopStop PbeLoop :=
  let isHigh := env.pageHighMem pfn
  if pageset1Map.testBit pfn then .ok st
  else if isHigh && st.highToFree ≠ 0 || !isHigh && st.lowToFree ≠ 0 then
    .ok (st.freePage pfn isHigh)
  else if isHigh || st.lowPagesForHighmem ≠ 0 then addHighPbe a env pageset1Map st pfn isHigh
  else addLowPbe a env pageset1Map st pfn

/-! ### The function -/

/-- What the function leaves: its return value, the two lists, `pageset1_copy_map`, the pages it
freed, and whether it went through `out:`, which frees the two duplicate maps and enables
interrupts and the other CPUs again. -/
structure LoadResult where
  result : Int
  restorePblist : List LoadPbe
  restoreHighmemPblist : List LoadPbe
  pageset1CopyMap : MemoryBitmap
  freed : List Nat
  irqsEnabled : Bool
  nonbootCpusEnabled : Bool
  dupMapsFreed : Bool

/-- The return from inside the pbe loop: `out:` is skipped. -/
def PbeLoop.noMemoryResult (st : PbeLoop) : LoadResult :=
  ⟨-ENOMEM, st.restorePblist, st.restoreHighmemPblist, st.pageset1CopyMap, st.freed,
    false, false, false⟩

/-- The end of a pbe loop that ran to the end: an unused last highmem pbe page is freed, then the
conflicting pages, and the function goes through `out:`. -/
def PbeLoop.finish (st : PbeLoop) : LoadResult :=
  let trailing := if st.lastHighPbePage ≠ st.highPbePage then st.highPbePage.toList else []
  ⟨0, st.restorePblist, st.restoreHighmemPblist, st.pageset1CopyMap,
    st.freed ++ trailing ++ st.supply.conflicting, true, true, true⟩

/-- The first pbe pages: a highmem one if pageset 1 has highmem pages, then a lowmem one; `none`
when either allocation fails (`goto out` with `-ENOMEM`). -/
def firstPbePages (pageset1Map : MemoryBitmap) (highNeeded : Int) (s : PageSupply) :
    Option (Option Nat × Nat × PageSupply) :=
  let (highPbePage, s) :=
    if highNeeded ≠ 0 then getNonconflictingPage pageset1Map s.alloc s.conflicting else (none, s)
  if highNeeded ≠ 0 ∧ highPbePage = none then none
  else
    match getNonconflictingPage pageset1Map s.alloc s.conflicting with
    | (some lowPbePage, s) => some (highPbePage, lowPbePage, s)
    | (none, _) => none

/-- The `high_to_free`, `low_to_free` and `low_pages_for_highmem` the pbe loop starts from, out of
the sizes of pagedir 1 and the counters of the first walk. -/
def toFree (d : Pagedirs) (c : CountLoop) : Int × Int × Int :=
  let highNeeded : Int := (d.pagedir1Highmem : Int) - c.highDirect
  let lowNeeded : Int := (d.pagedir1Size : Int) - d.pagedir1Highmem - c.lowDirect
  let lowPagesForHighmem : Int := if highNeeded > c.highallocd then highNeeded - c.highallocd else 0
  let highNeeded := highNeeded - lowPagesForHighmem
  let lowNeeded := lowNeeded + lowPagesForHighmem
  (c.highallocd - highNeeded, c.lowallocd - lowNeeded, lowPagesForHighmem)

/-- `pageset1_copy_map` after the loop that allocates every page it can. -/
def allocateAll (d : Pagedirs) (allocated : List Nat) : MemoryBitmap :=
  allocated.foldl MemoryBitmap.setBit d.pageset1CopyMap

/-- The first walk over `pageset1_copy_map`. -/
def countPages (env : LoadEnv) (pageset1Map copyMap : MemoryBitmap) : CountLoop :=
  copyMap.bits.foldl (countStep env pageset1Map) ⟨copyMap, [], 0, 0, 0, 0⟩

/-- The state the pbe loop starts from: both duplicate maps reset, the counters of `toFree`, the
first pbe pages, and empty lists (`last_low_pbe_ptr = &restore_pblist`). -/
def pbeLoopStart (d : Pagedirs) (c : CountLoop) (highPbePage : Option Nat) (lowPbePage : Nat)
    (supply : PageSupply) : PbeLoop :=
  ⟨c.pageset1CopyMap, (toFree d c).1, (toFree d c).2.1, (toFree d c).2.2, d.pageset1Map.bits,
    d.pageset1Map.bits, highPbePage, none, 0, lowPbePage, 0, [], [], supply, c.freed⟩

/-- `toi_get_pageset1_load_addresses`, `allocated` being the pages the allocate-everything loop
gets and `supply` what the allocator hands out to `___toi_get_nonconflicting_page`. `none` when
the kernel stops at a `BUG_ON`. -/
def toiGetPageset1LoadAddresses (a : Arch) (env : LoadEnv) (d : Pagedirs) (allocated : List Nat)
    (supply : PageSupply) : Option LoadResult :=
  match firstPbePages d.pageset1Map d.pagedir1Highmem supply with
  | none => some ⟨-ENOMEM, [], [], d.pageset1CopyMap, [], true, true, true⟩
  | some (highPbePage, lowPbePage, supply) =>
    let c := countPages env d.pageset1Map (allocateAll d allocated)
    match c.pageset1CopyMap.bits.foldlM (pbeStep a env d.pageset1Map)
        (pbeLoopStart d c highPbePage lowPbePage supply) with
    | .ok st => some st.finish
    | .error (.noMemory st) => some st.noMemoryResult
    | .error .bug => none

/-! ### The helpers -/

section Helpers

variable {skip : Nat → Bool}

theorem nextOrig_filter : ∀ {l l' : List Nat} {x : Nat}, nextOrig skip l = some (x, l') →
    l.filter (fun p => !skip p) = x :: l'.filter (fun p => !skip p) ∧ ∀ p ∈ l', p ∈ l
  | [], _, _, h => by simp [nextOrig] at h
  | p :: ps, l', x, h => by
    unfold nextOrig at h
    by_cases hp : skip p
    · rw [if_pos hp] at h
      obtain ⟨hf, hsub⟩ := nextOrig_filter h
      exact ⟨by simp [hp, hf], fun q hq => List.mem_cons_of_mem _ (hsub q hq)⟩
    · rw [if_neg hp] at h
      cases h
      exact ⟨by simp [hp], fun q hq => List.mem_cons_of_mem _ hq⟩

theorem nextOrig_isSome : ∀ {l : List Nat}, l.filter (fun p => !skip p) ≠ [] →
    ∃ x l', nextOrig skip l = some (x, l')
  | [], h => by simp at h
  | p :: ps, h => by
    unfold nextOrig
    by_cases hp : skip p
    · rw [if_pos hp]
      exact nextOrig_isSome (by simpa [List.filter_cons, hp] using h)
    · rw [if_neg hp]
      exact ⟨p, ps, rfl⟩

variable {ps1 : MemoryBitmap}

/-- The pages of an allocator's list that `___toi_get_nonconflicting_page` does not pass over. -/
def usable (ps1 : MemoryBitmap) (alloc : List Nat) : Nat :=
  (alloc.filter fun p => !ps1.testBit p).length

@[simp] theorem usable_cons (q : Nat) (qs : List Nat) :
    usable ps1 (q :: qs) = usable ps1 qs + if ps1.testBit q then 0 else 1 := by
  unfold usable
  cases h : ps1.testBit q <;> simp [h]

theorem getNonconflictingPage_some : ∀ {alloc : List Nat} (conflicting : List Nat),
    0 < usable ps1 alloc → ∃ p s, getNonconflictingPage ps1 alloc conflicting = (some p, s) ∧
      usable ps1 s.alloc + 1 = usable ps1 alloc
  | [], _, h => by simp [usable] at h
  | q :: qs, c, h => by
    unfold getNonconflictingPage
    by_cases hq : ps1.testBit q
    · rw [if_pos hq]
      rw [usable_cons, if_pos hq] at h ⊢
      exact getNonconflictingPage_some (q :: c) h
    · rw [if_neg hq]
      exact ⟨q, ⟨qs, c⟩, rfl, by simp [hq]⟩

theorem getNextPbe_some (a : Arch) (page slot : Nat) (s : PageSupply)
    (h : 0 < usable ps1 s.alloc) : ∃ next s', getNextPbe a ps1 page slot s = (some next, s') ∧
      usable ps1 s.alloc ≤ usable ps1 s'.alloc + 1 := by
  unfold getNextPbe
  split_ifs
  · obtain ⟨p, s', hget, hcount⟩ := getNonconflictingPage_some s.conflicting h
    rw [hget]
    exact ⟨(p, 0), s', rfl, by omega⟩
  · exact ⟨(page, slot + 1), s, rfl, by omega⟩

end Helpers

/-! ### The first walk -/

/-- The pages of a list outside pageset 1 in highmem, and in lowmem. -/
def highPages (env : LoadEnv) (ps1 : MemoryBitmap) (pfns : List Nat) : Nat :=
  (pfns.filter fun p => !ps1.testBit p && env.pageHighMem p).length

def lowPages (env : LoadEnv) (ps1 : MemoryBitmap) (pfns : List Nat) : Nat :=
  (pfns.filter fun p => !ps1.testBit p && !env.pageHighMem p).length

section Count

variable (env : LoadEnv) (ps1 : MemoryBitmap)

theorem foldl_countStep_counts (l : List Nat) (c : CountLoop) :
    (l.foldl (countStep env ps1) c).highallocd = c.highallocd + highPages env ps1 l ∧
    (l.foldl (countStep env ps1) c).lowallocd = c.lowallocd + lowPages env ps1 l ∧
    (l.foldl (countStep env ps1) c).highDirect = c.highDirect +
      (l.filter fun p => ps1.testBit p && !env.noDirectLoad && env.pageHighMem p).length ∧
    (l.foldl (countStep env ps1) c).lowDirect = c.lowDirect +
      (l.filter fun p => ps1.testBit p && !env.noDirectLoad && !env.pageHighMem p).length := by
  refine ⟨foldl_counter CountLoop.highallocd _ (fun c p => ?_) l c,
    foldl_counter CountLoop.lowallocd _ (fun c p => ?_) l c,
    foldl_counter CountLoop.highDirect _ (fun c p => ?_) l c,
    foldl_counter CountLoop.lowDirect _ (fun c p => ?_) l c⟩ <;>
  · cases hps : ps1.testBit p <;> cases hh : env.pageHighMem p <;> cases hn : env.noDirectLoad <;>
      simp [countStep, hps, hh, hn]

theorem mem_foldl_countStep (x : Nat) : ∀ (l : List Nat) (c : CountLoop),
    x ∈ (l.foldl (countStep env ps1) c).pageset1CopyMap.bits ↔
      x ∈ c.pageset1CopyMap.bits ∧ ¬(env.noDirectLoad = true ∧ x ∈ ps1.bits ∧ x ∈ l)
  | [], c => by simp
  | p :: l, c => by
    have hstep : x ∈ (countStep env ps1 c p).pageset1CopyMap.bits ↔
        x ∈ c.pageset1CopyMap.bits ∧ ¬(env.noDirectLoad = true ∧ x ∈ ps1.bits ∧ x = p) := by
      by_cases hxp : x = p
      · subst hxp
        cases hps : ps1.testBit x <;> cases hh : env.pageHighMem x <;>
          cases hn : env.noDirectLoad <;> simp_all [countStep, MemoryBitmap.testBit]
      · cases hps : ps1.testBit p <;> cases hh : env.pageHighMem p <;>
          cases hn : env.noDirectLoad <;> simp_all [countStep]
    rw [List.foldl_cons, mem_foldl_countStep x l, hstep, List.mem_cons]
    tauto

end Count

/-! ### The second walk -/

@[simp] theorem highPages_cons (env : LoadEnv) (ps1 : MemoryBitmap) (p : Nat) (rest : List Nat) :
    highPages env ps1 (p :: rest) =
      highPages env ps1 rest + if !ps1.testBit p && env.pageHighMem p then 1 else 0 := by
  unfold highPages
  cases h : (!ps1.testBit p && env.pageHighMem p) <;> simp [h]

@[simp] theorem lowPages_cons (env : LoadEnv) (ps1 : MemoryBitmap) (p : Nat) (rest : List Nat) :
    lowPages env ps1 (p :: rest) =
      lowPages env ps1 rest + if !ps1.testBit p && !env.pageHighMem p then 1 else 0 := by
  unfold lowPages
  cases h : (!ps1.testBit p && !env.pageHighMem p) <;> simp [h]

/-- A page of pageset 1 that needs a pbe on `restore_highmem_pblist`, with the map `copyMap`. -/
def wantHigh (env : LoadEnv) (copyMap : MemoryBitmap) (p : Nat) : Bool :=
  env.pageHighMem p && !loadDirect env copyMap p

/-- A page of pageset 1 that needs a pbe on `restore_pblist`, with the map `copyMap`. -/
def wantLow (env : LoadEnv) (copyMap : MemoryBitmap) (p : Nat) : Bool :=
  !env.pageHighMem p && !loadDirect env copyMap p

/-- What the second walk keeps, `rest` being the pfns of the map it has still to visit and
`copy1` the map the first walk left. The map still agrees with `copy1` on pageset 1. Each list
holds, in order, the first of the pfns that need a pbe on it, and its duplicate map holds the
others; how many those are is what the counters say the pages of `rest` will take. The copies
are distinct pages of `copy1` outside pageset 1 that the walk has passed. `low_to_free` keeps the
sign it starts with, `lowToFree₀`, and while it is negative no lowmem pbe is made. -/
structure LoopInv (env : LoadEnv) (ps1 copy1 : MemoryBitmap) (lowToFree₀ : Int) (st : PbeLoop)
    (rest : List Nat) : Prop where
  rest_nodup : rest.Nodup
  rest_sub : ∀ x ∈ rest, x ∈ copy1.bits
  copy_agree : ∀ p ∈ ps1.bits, st.pageset1CopyMap.testBit p = copy1.testBit p
  dup1_sub : ∀ p ∈ st.dupMap1, p ∈ ps1.bits
  dup2_sub : ∀ p ∈ st.dupMap2, p ∈ ps1.bits
  high_origs : st.restoreHighmemPblist.map LoadPbe.origAddress ++
    st.dupMap1.filter (wantHigh env copy1) = ps1.bits.filter (wantHigh env copy1)
  low_origs : st.restorePblist.map LoadPbe.origAddress ++
    st.dupMap2.filter (wantLow env copy1) = ps1.bits.filter (wantLow env copy1)
  highToFree_nonneg : 0 ≤ st.highToFree
  highToFree_le : st.highToFree ≤ highPages env ps1 rest
  lowPagesForHighmem_nonneg : 0 ≤ st.lowPagesForHighmem
  high_left : ((st.dupMap1.filter (wantHigh env copy1)).length : Int) =
    highPages env ps1 rest - st.highToFree + st.lowPagesForHighmem
  low_left : ((st.dupMap2.filter (wantLow env copy1)).length : Int) =
    lowPages env ps1 rest - st.lowToFree - st.lowPagesForHighmem
  high_page : st.highPbePage = none → st.dupMap1.filter (wantHigh env copy1) = []
  lowToFree_nonneg : 0 ≤ lowToFree₀ → 0 ≤ st.lowToFree
  lowToFree_neg : lowToFree₀ < 0 → st.lowToFree < 0 ∧ st.restorePblist = []
  addresses_nodup :
    (st.restoreHighmemPblist.map LoadPbe.address ++ st.restorePblist.map LoadPbe.address).Nodup
  addresses_mem : ∀ x ∈ st.restoreHighmemPblist.map LoadPbe.address ++
    st.restorePblist.map LoadPbe.address, x ∈ copy1.bits ∧ x ∉ rest ∧ x ∉ ps1.bits

section Walk

variable {a : Arch} {env : LoadEnv} {ps1 copy1 : MemoryBitmap} {lowToFree₀ : Int}
  {st st' : PbeLoop} {pfn : Nat} {rest : List Nat}

theorem loadDirect_congr {m : MemoryBitmap} (hm : ∀ p ∈ ps1.bits, m.testBit p = copy1.testBit p)
    {p : Nat} (hp : p ∈ ps1.bits) : loadDirect env m p = loadDirect env copy1 p := by
  simp [loadDirect, hm p hp]

theorem filter_not_skipHigh {m : MemoryBitmap} {l : List Nat} (hl : ∀ p ∈ l, p ∈ ps1.bits)
    (hm : ∀ p ∈ ps1.bits, m.testBit p = copy1.testBit p) :
    l.filter (fun p => !(!env.pageHighMem p || loadDirect env m p)) =
      l.filter (wantHigh env copy1) :=
  List.filter_congr fun p hp => by simp [wantHigh, loadDirect_congr hm (hl p hp)]

theorem filter_not_skipLow {m : MemoryBitmap} {l : List Nat} (hl : ∀ p ∈ l, p ∈ ps1.bits)
    (hm : ∀ p ∈ ps1.bits, m.testBit p = copy1.testBit p) :
    l.filter (fun p => !(env.pageHighMem p || loadDirect env m p)) =
      l.filter (wantLow env copy1) :=
  List.filter_congr fun p hp => by simp [wantLow, loadDirect_congr hm (hl p hp)]

theorem LoopInv.addresses_mem_tail (inv : LoopInv env ps1 copy1 lowToFree₀ st (pfn :: rest))
    {x : Nat} (hx : x ∈ st.restoreHighmemPblist.map LoadPbe.address ++
      st.restorePblist.map LoadPbe.address) : x ∈ copy1.bits ∧ x ∉ rest ∧ x ∉ ps1.bits := by
  obtain ⟨h1, h2, h3⟩ := inv.addresses_mem x hx
  exact ⟨h1, fun h => h2 (List.mem_cons_of_mem _ h), h3⟩

theorem LoopInv.skip (inv : LoopInv env ps1 copy1 lowToFree₀ st (pfn :: rest))
    (hps : pfn ∈ ps1.bits) : LoopInv env ps1 copy1 lowToFree₀ st rest := by
  have hps' : ps1.testBit pfn = true := MemoryBitmap.testBit_eq_true.mpr hps
  have hH := inv.highToFree_le
  have hhl := inv.high_left
  have hll := inv.low_left
  simp only [highPages_cons, lowPages_cons, hps', Bool.not_true, Bool.false_and] at hH hhl hll
  exact { inv with
    rest_nodup := (List.nodup_cons.mp inv.rest_nodup).2
    rest_sub := fun x hx => inv.rest_sub x (List.mem_cons_of_mem _ hx)
    highToFree_le := hH
    high_left := hhl
    low_left := hll
    addresses_mem := fun x hx => inv.addresses_mem_tail hx }

theorem addHighPbe_ok {isHigh : Bool} (h : addHighPbe a env ps1 st pfn isHigh = .ok st') :
    ∃ orig dupMap1 page next s,
      nextOrig (fun p => !env.pageHighMem p || loadDirect env st.pageset1CopyMap p) st.dupMap1 =
        some (orig, dupMap1) ∧ st.highPbePage = some page ∧
      getNextPbe a ps1 page st.highSlot st.supply = (some next, s) ∧
      st' = { st with
        lowPagesForHighmem := if isHigh then st.lowPagesForHighmem else st.lowPagesForHighmem - 1
        dupMap1 := dupMap1
        restoreHighmemPblist := st.restoreHighmemPblist ++ [LoadPbe.mk orig pfn]
        lastHighPbePage := some page
        highPbePage := some next.1
        highSlot := next.2
        supply := s } := by
  unfold addHighPbe at h
  cases hnext : nextOrig (fun p => !env.pageHighMem p || loadDirect env st.pageset1CopyMap p)
    st.dupMap1 with
  | none => simp [hnext] at h
  | some od =>
    obtain ⟨orig, dupMap1⟩ := od
    cases hpage : st.highPbePage with
    | none => simp [hnext, hpage] at h
    | some page =>
      simp only [hnext, hpage] at h
      cases hget : getNextPbe a ps1 page st.highSlot st.supply with
      | mk next s =>
        cases next with
        | none => simp [hget] at h
        | some next =>
          simp only [hget, Except.ok.injEq] at h
          exact ⟨orig, dupMap1, page, next, s, rfl, rfl, hget, h.symm⟩

theorem addLowPbe_ok (h : addLowPbe a env ps1 st pfn = .ok st') :
    ∃ orig dupMap2 next s,
      nextOrig (fun p => env.pageHighMem p || loadDirect env st.pageset1CopyMap p) st.dupMap2 =
        some (orig, dupMap2) ∧
      getNextPbe a ps1 st.lowPbePage st.lowSlot st.supply = (some next, s) ∧
      st' = { st with
        dupMap2 := dupMap2
        restorePblist := st.restorePblist ++ [LoadPbe.mk orig pfn]
        lowPbePage := next.1
        lowSlot := next.2
        supply := s } := by
  unfold addLowPbe at h
  cases hnext : nextOrig (fun p => env.pageHighMem p || loadDirect env st.pageset1CopyMap p)
    st.dupMap2 with
  | none => simp [hnext] at h
  | some od =>
    obtain ⟨orig, dupMap2⟩ := od
    simp only [hnext] at h
    cases hget : getNextPbe a ps1 st.lowPbePage st.lowSlot st.supply with
    | mk next s =>
      cases next with
      | none => simp [hget] at h
      | some next =>
        simp only [hget, Except.ok.injEq] at h
        exact ⟨orig, dupMap2, next, s, rfl, rfl, h.symm⟩

theorem LoopInv.rest_tail (inv : LoopInv env ps1 copy1 lowToFree₀ st (pfn :: rest)) :
    rest.Nodup ∧ ∀ x ∈ rest, x ∈ copy1.bits :=
  ⟨(List.nodup_cons.mp inv.rest_nodup).2, fun x hx => inv.rest_sub x (List.mem_cons_of_mem _ hx)⟩

theorem LoopInv.addresses_cons (inv : LoopInv env ps1 copy1 lowToFree₀ st (pfn :: rest))
    (hps : pfn ∉ ps1.bits) {l : List Nat}
    (hl : l.Perm (pfn :: (st.restoreHighmemPblist.map LoadPbe.address ++
      st.restorePblist.map LoadPbe.address))) :
    l.Nodup ∧ ∀ x ∈ l, x ∈ copy1.bits ∧ x ∉ rest ∧ x ∉ ps1.bits := by
  have hnew : pfn ∉ st.restoreHighmemPblist.map LoadPbe.address ++
      st.restorePblist.map LoadPbe.address := fun h =>
    (inv.addresses_mem pfn h).2.1 List.mem_cons_self
  refine ⟨hl.nodup_iff.mpr (List.nodup_cons.mpr ⟨hnew, inv.addresses_nodup⟩), fun x hx => ?_⟩
  rcases List.mem_cons.mp (hl.mem_iff.mp hx) with rfl | hx
  · exact ⟨inv.rest_sub x List.mem_cons_self, (List.nodup_cons.mp inv.rest_nodup).1, hps⟩
  · exact inv.addresses_mem_tail hx

theorem LoopInv.free (inv : LoopInv env ps1 copy1 lowToFree₀ st (pfn :: rest))
    (hps : pfn ∉ ps1.bits)
    (hfree : env.pageHighMem pfn = true ∧ st.highToFree ≠ 0 ∨
      env.pageHighMem pfn = false ∧ st.lowToFree ≠ 0) :
    LoopInv env ps1 copy1 lowToFree₀ (st.freePage pfn (env.pageHighMem pfn)) rest := by
  have hps' := MemoryBitmap.testBit_eq_false.mpr hps
  have hagree : ∀ p ∈ ps1.bits, (st.pageset1CopyMap.clearBit pfn).testBit p = copy1.testBit p := by
    intro p hp
    have hne : p ≠ pfn := fun h => hps (h ▸ hp)
    rw [← inv.copy_agree p hp]
    simp [MemoryBitmap.testBit, hne]
  have hH := inv.highToFree_le
  have hhl := inv.high_left
  have hll := inv.low_left
  have h0 := inv.highToFree_nonneg
  cases hh : env.pageHighMem pfn
  · -- a lowmem page: one lowmem page less to free
    have hl : st.lowToFree ≠ 0 := by simpa [hh] using hfree
    simp [hps', hh] at hH hhl hll
    exact { inv with
      rest_nodup := inv.rest_tail.1
      rest_sub := inv.rest_tail.2
      copy_agree := hagree
      highToFree_le := hH
      high_left := hhl
      low_left := by simp only [PbeLoop.freePage, Bool.false_eq_true, ↓reduceIte]; omega
      lowToFree_nonneg := fun h => by
        have := inv.lowToFree_nonneg h
        simp only [PbeLoop.freePage, Bool.false_eq_true, ↓reduceIte]
        omega
      lowToFree_neg := fun h => by
        obtain ⟨h1, h2⟩ := inv.lowToFree_neg h
        exact ⟨by simp only [PbeLoop.freePage, Bool.false_eq_true, ↓reduceIte]; omega, h2⟩
      addresses_mem := fun x hx => inv.addresses_mem_tail hx }
  · -- a highmem page: one highmem page less to free
    have hl : st.highToFree ≠ 0 := by simpa [hh] using hfree
    simp [hps', hh] at hH hhl hll
    exact { inv with
      rest_nodup := inv.rest_tail.1
      rest_sub := inv.rest_tail.2
      copy_agree := hagree
      highToFree_nonneg := by simp only [PbeLoop.freePage, ↓reduceIte]; omega
      highToFree_le := by simp only [PbeLoop.freePage, ↓reduceIte]; omega
      high_left := by simp only [PbeLoop.freePage, ↓reduceIte]; omega
      low_left := hll
      addresses_mem := fun x hx => inv.addresses_mem_tail hx }

theorem LoopInv.addHigh (inv : LoopInv env ps1 copy1 lowToFree₀ st (pfn :: rest))
    (hps : pfn ∉ ps1.bits) (hhigh : env.pageHighMem pfn = true → st.highToFree = 0)
    (hlow : env.pageHighMem pfn = false → st.lowToFree = 0)
    (hbranch : env.pageHighMem pfn = true ∨ st.lowPagesForHighmem ≠ 0)
    (h : addHighPbe a env ps1 st pfn (env.pageHighMem pfn) = .ok st') :
    LoopInv env ps1 copy1 lowToFree₀ st' rest := by
  obtain ⟨orig, dupMap1, page, next, s, hnext, -, -, rfl⟩ := addHighPbe_ok h
  obtain ⟨hfilter, hsub⟩ := nextOrig_filter hnext
  have hsub' : ∀ p ∈ dupMap1, p ∈ ps1.bits := fun p hp => inv.dup1_sub p (hsub p hp)
  rw [filter_not_skipHigh inv.dup1_sub inv.copy_agree,
    filter_not_skipHigh hsub' inv.copy_agree] at hfilter
  have hps' := MemoryBitmap.testBit_eq_false.mpr hps
  have hH := inv.highToFree_le
  have hhl := inv.high_left
  have hll := inv.low_left
  have hL := inv.lowPagesForHighmem_nonneg
  rw [hfilter] at hhl
  have haddr := inv.addresses_cons hps (l := (st.restoreHighmemPblist ++ [LoadPbe.mk orig pfn]).map
    LoadPbe.address ++ st.restorePblist.map LoadPbe.address) (by simp)
  have horigs : (st.restoreHighmemPblist ++ [LoadPbe.mk orig pfn]).map LoadPbe.origAddress ++
      dupMap1.filter (wantHigh env copy1) = ps1.bits.filter (wantHigh env copy1) := by
    rw [← inv.high_origs, hfilter]
    simp
  cases hh : env.pageHighMem pfn
  · -- a lowmem page, lent to a highmem copy
    have hlent : st.lowPagesForHighmem ≠ 0 := by simpa [hh] using hbranch
    have hl0 := hlow hh
    simp [hps', hh] at hH hhl hll
    exact { inv with
      rest_nodup := inv.rest_tail.1
      rest_sub := inv.rest_tail.2
      dup1_sub := hsub'
      high_origs := horigs
      highToFree_le := hH
      lowPagesForHighmem_nonneg := by simp only [Bool.false_eq_true, ↓reduceIte]; omega
      high_left := by simp only [Bool.false_eq_true, ↓reduceIte]; omega
      low_left := by simp only [Bool.false_eq_true, ↓reduceIte]; omega
      high_page := fun h => by cases h
      addresses_nodup := haddr.1
      addresses_mem := haddr.2 }
  · -- a highmem page
    have h0 := hhigh hh
    simp [hps', hh] at hH hhl hll
    exact { inv with
      rest_nodup := inv.rest_tail.1
      rest_sub := inv.rest_tail.2
      dup1_sub := hsub'
      high_origs := horigs
      highToFree_le := by simp only; omega
      lowPagesForHighmem_nonneg := by simpa using hL
      high_left := by simp only [↓reduceIte]; omega
      low_left := by simp only [↓reduceIte]; omega
      high_page := fun h => by cases h
      addresses_nodup := haddr.1
      addresses_mem := haddr.2 }

theorem LoopInv.addLow (inv : LoopInv env ps1 copy1 lowToFree₀ st (pfn :: rest))
    (hps : pfn ∉ ps1.bits) (hh : env.pageHighMem pfn = false) (hl0 : st.lowToFree = 0)
    (hlent : st.lowPagesForHighmem = 0) (h : addLowPbe a env ps1 st pfn = .ok st') :
    LoopInv env ps1 copy1 lowToFree₀ st' rest := by
  obtain ⟨orig, dupMap2, next, s, hnext, -, rfl⟩ := addLowPbe_ok h
  obtain ⟨hfilter, hsub⟩ := nextOrig_filter hnext
  have hsub' : ∀ p ∈ dupMap2, p ∈ ps1.bits := fun p hp => inv.dup2_sub p (hsub p hp)
  rw [filter_not_skipLow inv.dup2_sub inv.copy_agree,
    filter_not_skipLow hsub' inv.copy_agree] at hfilter
  have hps' := MemoryBitmap.testBit_eq_false.mpr hps
  have hH := inv.highToFree_le
  have hhl := inv.high_left
  have hll := inv.low_left
  rw [hfilter] at hll
  simp [hps', hh] at hH hhl hll
  have haddr := inv.addresses_cons hps (l := st.restoreHighmemPblist.map LoadPbe.address ++
    (st.restorePblist ++ [LoadPbe.mk orig pfn]).map LoadPbe.address)
    (by
      rw [List.map_append, List.map_singleton, ← List.append_assoc]
      exact List.perm_append_singleton _ _)
  exact { inv with
    rest_nodup := inv.rest_tail.1
    rest_sub := inv.rest_tail.2
    dup2_sub := hsub'
    low_origs := by
      simp only
      rw [← inv.low_origs, hfilter]
      simp
    highToFree_le := hH
    high_left := hhl
    low_left := by simp only; omega
    lowToFree_neg := fun h => by
      have := (inv.lowToFree_neg h).1
      omega
    addresses_nodup := haddr.1
    addresses_mem := haddr.2 }

/-- One pfn of the walk keeps the invariant. -/
theorem LoopInv.step (inv : LoopInv env ps1 copy1 lowToFree₀ st (pfn :: rest))
    (h : pbeStep a env ps1 st pfn = .ok st') : LoopInv env ps1 copy1 lowToFree₀ st' rest := by
  dsimp only [pbeStep] at h
  by_cases hps : ps1.testBit pfn = true
  · rw [if_pos hps] at h
    cases h
    exact inv.skip (MemoryBitmap.testBit_eq_true.mp hps)
  rw [if_neg hps] at h
  have hps' : pfn ∉ ps1.bits := fun hm => hps (MemoryBitmap.testBit_eq_true.mpr hm)
  split_ifs at h with hfree hbranch
  · cases h
    exact inv.free hps' (by simpa using hfree)
  -- the page is kept: the counter of its zone is zero
  all_goals
    have hhigh : env.pageHighMem pfn = true → st.highToFree = 0 := fun hx => by
      simpa [hx] using hfree
    have hlow : env.pageHighMem pfn = false → st.lowToFree = 0 := fun hx => by
      simpa [hx] using hfree
  · exact inv.addHigh hps' hhigh hlow (by simpa using hbranch) h
  · have hlowmem : env.pageHighMem pfn = false ∧ st.lowPagesForHighmem = 0 := by simpa using hbranch
    exact inv.addLow hps' hlowmem.1 (hlow hlowmem.1) hlowmem.2 h

theorem LoopInv.run {rest : List Nat} {st st' : PbeLoop}
    (inv : LoopInv env ps1 copy1 lowToFree₀ st rest)
    (h : rest.foldlM (pbeStep a env ps1) st = .ok st') : LoopInv env ps1 copy1 lowToFree₀ st' [] :=
  foldlM_except_invariant (P := fun rest st => LoopInv env ps1 copy1 lowToFree₀ st rest)
    (fun _ _ _ _ inv hs => inv.step hs) inv h

theorem addHighPbe_of {isHigh : Bool} {orig : Nat} {dupMap1 : List Nat} {page : Nat}
    {next : Nat × Nat} {s : PageSupply}
    (hnext : nextOrig (fun p => !env.pageHighMem p || loadDirect env st.pageset1CopyMap p)
      st.dupMap1 = some (orig, dupMap1))
    (hpage : st.highPbePage = some page)
    (hget : getNextPbe a ps1 page st.highSlot st.supply = (some next, s)) :
    addHighPbe a env ps1 st pfn isHigh = .ok { st with
        lowPagesForHighmem := if isHigh then st.lowPagesForHighmem else st.lowPagesForHighmem - 1
        dupMap1 := dupMap1
        restoreHighmemPblist := st.restoreHighmemPblist ++ [LoadPbe.mk orig pfn]
        lastHighPbePage := some page
        highPbePage := some next.1
        highSlot := next.2
        supply := s } := by
  unfold addHighPbe
  simp only [hnext, hpage, hget]

theorem addLowPbe_of {orig : Nat} {dupMap2 : List Nat} {next : Nat × Nat} {s : PageSupply}
    (hnext : nextOrig (fun p => env.pageHighMem p || loadDirect env st.pageset1CopyMap p)
      st.dupMap2 = some (orig, dupMap2))
    (hget : getNextPbe a ps1 st.lowPbePage st.lowSlot st.supply = (some next, s)) :
    addLowPbe a env ps1 st pfn = .ok { st with
        dupMap2 := dupMap2
        restorePblist := st.restorePblist ++ [LoadPbe.mk orig pfn]
        lowPbePage := next.1
        lowSlot := next.2
        supply := s } := by
  unfold addLowPbe
  simp only [hnext, hget]

theorem LoopInv.found_high (inv : LoopInv env ps1 copy1 lowToFree₀ st rest)
    (hne : st.dupMap1.filter (wantHigh env copy1) ≠ []) : ∃ orig dupMap1 page,
      nextOrig (fun p => !env.pageHighMem p || loadDirect env st.pageset1CopyMap p) st.dupMap1 =
        some (orig, dupMap1) ∧ st.highPbePage = some page := by
  obtain ⟨orig, dupMap1, hnext⟩ := nextOrig_isSome
    (by rwa [filter_not_skipHigh inv.dup1_sub inv.copy_agree])
  cases hp : st.highPbePage with
  | none => exact absurd (inv.high_page hp) hne
  | some page => exact ⟨orig, dupMap1, page, hnext, rfl⟩

theorem LoopInv.found_low (inv : LoopInv env ps1 copy1 lowToFree₀ st rest)
    (hne : st.dupMap2.filter (wantLow env copy1) ≠ []) : ∃ orig dupMap2,
      nextOrig (fun p => env.pageHighMem p || loadDirect env st.pageset1CopyMap p) st.dupMap2 =
        some (orig, dupMap2) :=
  nextOrig_isSome (by rwa [filter_not_skipLow inv.dup2_sub inv.copy_agree])

theorem LoopInv.step_found (inv : LoopInv env ps1 copy1 lowToFree₀ st (pfn :: rest))
    (hps : ps1.testBit pfn = false) :
    (∃ isHigh, pbeStep a env ps1 st pfn = .ok (st.freePage pfn isHigh)) ∨
    (∃ isHigh orig dupMap1 page,
      nextOrig (fun p => !env.pageHighMem p || loadDirect env st.pageset1CopyMap p) st.dupMap1 =
        some (orig, dupMap1) ∧ st.highPbePage = some page ∧
      pbeStep a env ps1 st pfn = addHighPbe a env ps1 st pfn isHigh) ∨
    (∃ orig dupMap2,
      nextOrig (fun p => env.pageHighMem p || loadDirect env st.pageset1CopyMap p) st.dupMap2 =
        some (orig, dupMap2) ∧ pbeStep a env ps1 st pfn = addLowPbe a env ps1 st pfn) := by
  have hH := inv.highToFree_le
  have hhl := inv.high_left
  have hll := inv.low_left
  have hL := inv.lowPagesForHighmem_nonneg
  dsimp only [pbeStep]
  rw [hps]
  simp only [Bool.false_eq_true, ↓reduceIte]
  cases hh : env.pageHighMem pfn
  · -- a lowmem page: freed, lent to a highmem copy, or given a lowmem pbe
    simp only [highPages_cons, lowPages_cons, hps, hh, Bool.not_false, Bool.true_and,
      Bool.false_eq_true, ↓reduceIte, Nat.add_zero] at hH hhl hll
    split_ifs with hfree hbranch
    · exact .inl ⟨false, rfl⟩
    · have hl0 : st.lowToFree = 0 := by simpa using hfree
      have hlent : st.lowPagesForHighmem ≠ 0 := by simpa using hbranch
      obtain ⟨orig, dupMap1, page, hnext, hpage⟩ := inv.found_high fun h0 => by
        rw [h0] at hhl
        simp only [List.length_nil] at hhl
        omega
      exact .inr (.inl ⟨false, orig, dupMap1, page, hnext, hpage, rfl⟩)
    · have hl0 : st.lowToFree = 0 := by simpa using hfree
      have hlent : st.lowPagesForHighmem = 0 := by simpa using hbranch
      obtain ⟨orig, dupMap2, hnext⟩ := inv.found_low fun h0 => by
        rw [h0] at hll
        simp only [List.length_nil] at hll
        omega
      exact .inr (.inr ⟨orig, dupMap2, hnext, rfl⟩)
  · -- a highmem page: freed, or given a highmem pbe
    simp only [highPages_cons, lowPages_cons, hps, hh, Bool.not_false, Bool.true_and,
      Bool.not_true, Bool.false_eq_true, ↓reduceIte, Nat.add_zero] at hH hhl hll
    split_ifs with hfree hbranch
    · exact .inl ⟨true, rfl⟩
    · have hh0 : st.highToFree = 0 := by simpa using hfree
      obtain ⟨orig, dupMap1, page, hnext, hpage⟩ := inv.found_high fun h0 => by
        rw [h0] at hhl
        simp only [List.length_nil] at hhl
        omega
      exact .inr (.inl ⟨true, orig, dupMap1, page, hnext, hpage, rfl⟩)
    · simp at hbranch

theorem LoopInv.step_ok (inv : LoopInv env ps1 copy1 lowToFree₀ st (pfn :: rest))
    (hsupply : usable ps1 (pfn :: rest) ≤ usable ps1 st.supply.alloc) :
    ∃ st', pbeStep a env ps1 st pfn = .ok st' ∧ usable ps1 rest ≤ usable ps1 st'.supply.alloc := by
  by_cases hps : ps1.testBit pfn = true
  · exact ⟨st, by simp [pbeStep, hps], by simpa [hps] using hsupply⟩
  have hps' : ps1.testBit pfn = false := Bool.eq_false_iff.mpr hps
  rw [usable_cons, hps'] at hsupply
  simp only [Bool.false_eq_true, ↓reduceIte] at hsupply
  have hpos : 0 < usable ps1 st.supply.alloc := by omega
  rcases inv.step_found (a := a) hps' with ⟨isHigh, h⟩ |
    ⟨isHigh, orig, dupMap1, page, hnext, hpage, h⟩ | ⟨orig, dupMap2, hnext, h⟩
  · exact ⟨_, h, by simp only [PbeLoop.freePage]; omega⟩
  · obtain ⟨next, s, hget, hcount⟩ := getNextPbe_some a page st.highSlot st.supply hpos
    exact ⟨_, h.trans (addHighPbe_of hnext hpage hget), by simp only; omega⟩
  · obtain ⟨next, s, hget, hcount⟩ := getNextPbe_some a st.lowPbePage st.lowSlot st.supply hpos
    exact ⟨_, h.trans (addLowPbe_of hnext hget), by simp only; omega⟩

/-- With a page outside pageset 1 from the allocator for every page outside pageset 1 of the
walk, the walk runs to its end. -/
theorem LoopInv.run_ok : ∀ {rest : List Nat} {st : PbeLoop},
    LoopInv env ps1 copy1 lowToFree₀ st rest → usable ps1 rest ≤ usable ps1 st.supply.alloc →
      ∃ st', rest.foldlM (pbeStep a env ps1) st = .ok st'
  | [], st, _, _ => ⟨st, rfl⟩
  | pfn :: rest, st, inv, hsupply => by
    obtain ⟨mid, hs, hmid⟩ := inv.step_ok (a := a) hsupply
    obtain ⟨st', h⟩ := LoopInv.run_ok (inv.step hs) hmid
    refine ⟨st', ?_⟩
    rw [List.foldlM_cons, hs]
    exact h

theorem addHighPbe_ne_bug {isHigh : Bool} {orig : Nat} {dupMap1 : List Nat} {page : Nat}
    (hnext : nextOrig (fun p => !env.pageHighMem p || loadDirect env st.pageset1CopyMap p)
      st.dupMap1 = some (orig, dupMap1))
    (hpage : st.highPbePage = some page) :
    addHighPbe a env ps1 st pfn isHigh ≠ .error .bug := by
  unfold addHighPbe
  simp only [hnext, hpage]
  split <;> simp

theorem addLowPbe_ne_bug {orig : Nat} {dupMap2 : List Nat}
    (hnext : nextOrig (fun p => env.pageHighMem p || loadDirect env st.pageset1CopyMap p)
      st.dupMap2 = some (orig, dupMap2)) :
    addLowPbe a env ps1 st pfn ≠ .error .bug := by
  unfold addLowPbe
  simp only [hnext]
  split <;> simp

theorem LoopInv.step_ne_bug (inv : LoopInv env ps1 copy1 lowToFree₀ st (pfn :: rest)) :
    pbeStep a env ps1 st pfn ≠ .error .bug := by
  by_cases hps : ps1.testBit pfn = true
  · simp [pbeStep, hps]
  rcases inv.step_found (a := a) (Bool.eq_false_iff.mpr hps) with ⟨isHigh, h⟩ |
    ⟨isHigh, orig, dupMap1, page, hnext, hpage, h⟩ | ⟨orig, dupMap2, hnext, h⟩
  · simp [h]
  · rw [h]
    exact addHighPbe_ne_bug hnext hpage
  · rw [h]
    exact addLowPbe_ne_bug hnext

theorem LoopInv.run_ne_bug : ∀ {rest : List Nat} {st : PbeLoop},
    LoopInv env ps1 copy1 lowToFree₀ st rest → rest.foldlM (pbeStep a env ps1) st ≠ .error .bug
  | [], _, _ => by
    intro h
    cases h
  | pfn :: rest, st, inv => by
    rw [List.foldlM_cons]
    cases hs : pbeStep a env ps1 st pfn with
    | error e =>
      cases e with
      | bug => exact absurd hs inv.step_ne_bug
      | noMemory st' =>
        intro h
        cases h
    | ok mid => exact LoopInv.run_ne_bug (inv.step hs)

end Walk

/-! ### The start of the walk -/

section Start

variable (env : LoadEnv) (ps1 copyMap : MemoryBitmap)

theorem mem_countPages {x : Nat} : x ∈ (countPages env ps1 copyMap).pageset1CopyMap.bits ↔
    x ∈ copyMap.bits ∧ ¬(env.noDirectLoad = true ∧ x ∈ ps1.bits) := by
  rw [countPages, mem_foldl_countStep]
  tauto

theorem countPages_allocd :
    highPages env ps1 (countPages env ps1 copyMap).pageset1CopyMap.bits =
      (countPages env ps1 copyMap).highallocd ∧
    lowPages env ps1 (countPages env ps1 copyMap).pageset1CopyMap.bits =
      (countPages env ps1 copyMap).lowallocd := by
  obtain ⟨hh, hl, -, -⟩ := foldl_countStep_counts env ps1 copyMap.bits ⟨copyMap, [], 0, 0, 0, 0⟩
  rw [countPages, hh, hl, Nat.zero_add, Nat.zero_add]
  refine ⟨length_filter_eq_of_mem_iff (MemoryBitmap.nodup_bits _) (MemoryBitmap.nodup_bits _)
    fun x => ?_, length_filter_eq_of_mem_iff (MemoryBitmap.nodup_bits _)
    (MemoryBitmap.nodup_bits _) fun x => ?_⟩ <;>
  · rw [← countPages, mem_countPages]
    by_cases hx : x ∈ ps1.bits <;> simp [hx, MemoryBitmap.testBit]

theorem countPages_direct :
    (ps1.bits.filter (wantHigh env (countPages env ps1 copyMap).pageset1CopyMap)).length +
        (countPages env ps1 copyMap).highDirect = (ps1.bits.filter env.pageHighMem).length ∧
    (ps1.bits.filter (wantLow env (countPages env ps1 copyMap).pageset1CopyMap)).length +
        (countPages env ps1 copyMap).lowDirect =
      (ps1.bits.filter fun p => !env.pageHighMem p).length := by
  obtain ⟨-, -, hh, hl⟩ := foldl_countStep_counts env ps1 copyMap.bits ⟨copyMap, [], 0, 0, 0, 0⟩
  set copy1 := (countPages env ps1 copyMap).pageset1CopyMap
  -- a page of pageset 1 is loaded in place when the allocate-everything loop got it
  have hdirect (z : Nat → Bool) :
      ((ps1.bits.filter z).filter (loadDirect env copy1)).length =
        (copyMap.bits.filter fun p => ps1.testBit p && !env.noDirectLoad && z p).length := by
    rw [List.filter_filter]
    refine length_filter_eq_of_mem_iff (MemoryBitmap.nodup_bits _) (MemoryBitmap.nodup_bits _)
      fun x => ?_
    have hx := mem_countPages env ps1 copyMap (x := x)
    cases hn : env.noDirectLoad <;> by_cases hxc : x ∈ copyMap.bits <;>
      simp [loadDirect, MemoryBitmap.testBit, hn, copy1, hx, hxc]
  -- the others need a pbe
  have hsplit (z : Nat → Bool) (w : Nat → Bool) (hw : ∀ p, w p = (z p && !loadDirect env copy1 p)) :
      (ps1.bits.filter w).length + (copyMap.bits.filter fun p =>
        ps1.testBit p && !env.noDirectLoad && z p).length = (ps1.bits.filter z).length := by
    rw [List.length_eq_length_filter_add (l := ps1.bits.filter z) (loadDirect env copy1),
      hdirect z, List.filter_filter, Nat.add_comm]
    congr 2
    exact List.filter_congr fun p _ => by rw [hw, Bool.and_comm]
  obtain ⟨-, -, hh, hl⟩ := foldl_countStep_counts env ps1 copyMap.bits ⟨copyMap, [], 0, 0, 0, 0⟩
  rw [← countPages] at hh hl
  rw [hh, hl, Nat.zero_add, Nat.zero_add]
  exact ⟨hsplit env.pageHighMem _ fun p => rfl, hsplit (fun p => !env.pageHighMem p) _ fun p => rfl⟩

end Start

/-- The counters the pbe loop starts from: nothing negative to free in highmem, and the pages
each zone keeps are what the pbes of pageset 1 need once the pages loaded in place are taken
off. -/
theorem toFree_counters (d : Pagedirs) (c : CountLoop) (hH : c.highDirect ≤ d.pagedir1Highmem) :
    0 ≤ (toFree d c).1 ∧ (toFree d c).1 ≤ c.highallocd ∧ 0 ≤ (toFree d c).2.2 ∧
    (c.highallocd : Int) - (toFree d c).1 + (toFree d c).2.2 =
      (d.pagedir1Highmem : Int) - c.highDirect ∧
    (c.lowallocd : Int) - (toFree d c).2.1 - (toFree d c).2.2 =
      (d.pagedir1Size : Int) - d.pagedir1Highmem - c.lowDirect := by
  simp only [toFree]
  split_ifs <;> omega

theorem toFree_lowToFree_neg (d : Pagedirs) (c : CountLoop) :
    (toFree d c).2.1 < 0 ↔
      (c.lowallocd : Int) < (d.pagedir1Size : Int) - d.pagedir1Highmem - c.lowDirect ∨
      (c.lowallocd + c.highallocd : Int) < (d.pagedir1Size : Int) - c.lowDirect - c.highDirect := by
  simp only [toFree]
  split_ifs <;> omega

section Start'

variable {env : LoadEnv} {d : Pagedirs}

theorem loopInv_start (hsize : d.pagedir1Size = d.pageset1Map.bits.length)
    (hhigh : d.pagedir1Highmem = (d.pageset1Map.bits.filter env.pageHighMem).length)
    (copyMap : MemoryBitmap) {highPbePage : Option Nat}
    (hpage : highPbePage = none → d.pagedir1Highmem = 0) (lowPbePage : Nat) (supply : PageSupply) :
    LoopInv env d.pageset1Map (countPages env d.pageset1Map copyMap).pageset1CopyMap
      (toFree d (countPages env d.pageset1Map copyMap)).2.1
      (pbeLoopStart d (countPages env d.pageset1Map copyMap) highPbePage lowPbePage supply)
      (countPages env d.pageset1Map copyMap).pageset1CopyMap.bits := by
  obtain ⟨hHd, hLd⟩ := countPages_direct env d.pageset1Map copyMap
  obtain ⟨hHa, hLa⟩ := countPages_allocd env d.pageset1Map copyMap
  have hzones := List.length_eq_length_filter_add (l := d.pageset1Map.bits) env.pageHighMem
  obtain ⟨h1, h2, h3, h4, h5⟩ := toFree_counters d (countPages env d.pageset1Map copyMap) (by omega)
  exact {
    rest_nodup := MemoryBitmap.nodup_bits _
    rest_sub := fun x hx => hx
    copy_agree := fun p _ => rfl
    dup1_sub := fun p hp => hp
    dup2_sub := fun p hp => hp
    high_origs := rfl
    low_origs := rfl
    highToFree_nonneg := h1
    highToFree_le := by simp only [pbeLoopStart]; omega
    lowPagesForHighmem_nonneg := h3
    high_left := by simp only [pbeLoopStart]; omega
    low_left := by simp only [pbeLoopStart]; omega
    high_page := fun h => List.eq_nil_of_length_eq_zero (by
      have := hpage h
      simp only [pbeLoopStart]
      omega)
    lowToFree_nonneg := id
    lowToFree_neg := fun h => ⟨h, rfl⟩
    addresses_nodup := List.nodup_nil
    addresses_mem := by simp [pbeLoopStart] }

end Start'

/-! ### The end of the walk -/

section End

variable {env : LoadEnv} {ps1 copy1 : MemoryBitmap} {lowToFree₀ : Int} {st : PbeLoop}

theorem LoopInv.left_at_end (inv : LoopInv env ps1 copy1 lowToFree₀ st []) :
    ((st.dupMap1.filter (wantHigh env copy1)).length : Int) = st.lowPagesForHighmem ∧
    ((st.dupMap2.filter (wantLow env copy1)).length : Int) =
      -st.lowToFree - st.lowPagesForHighmem := by
  have hH := inv.highToFree_le
  have h0 := inv.highToFree_nonneg
  have hhl := inv.high_left
  have hll := inv.low_left
  simp only [highPages, lowPages, List.filter_nil, List.length_nil] at hH hhl hll
  omega

theorem LoopInv.complete (inv : LoopInv env ps1 copy1 lowToFree₀ st []) (h0 : 0 ≤ lowToFree₀) :
    st.restoreHighmemPblist.map LoadPbe.origAddress = ps1.bits.filter (wantHigh env copy1) ∧
    st.restorePblist.map LoadPbe.origAddress = ps1.bits.filter (wantLow env copy1) := by
  obtain ⟨hhl, hll⟩ := inv.left_at_end
  have hlow := inv.lowToFree_nonneg h0
  have hlent := inv.lowPagesForHighmem_nonneg
  have hnil1 : st.dupMap1.filter (wantHigh env copy1) = [] :=
    List.eq_nil_of_length_eq_zero (by omega)
  have hnil2 : st.dupMap2.filter (wantLow env copy1) = [] :=
    List.eq_nil_of_length_eq_zero (by omega)
  refine ⟨?_, ?_⟩
  · rw [← inv.high_origs, hnil1, List.append_nil]
  · rw [← inv.low_origs, hnil2, List.append_nil]

theorem LoopInv.missing (inv : LoopInv env ps1 copy1 lowToFree₀ st []) (hneg : lowToFree₀ < 0) :
    st.restorePblist = [] ∧ ∃ p ∈ ps1.bits, loadDirect env copy1 p = false ∧
      p ∉ (st.restoreHighmemPblist ++ st.restorePblist).map LoadPbe.origAddress := by
  obtain ⟨hlt, hlow⟩ := inv.lowToFree_neg hneg
  obtain ⟨hhl, hll⟩ := inv.left_at_end
  have hlent := inv.lowPagesForHighmem_nonneg
  refine ⟨hlow, ?_⟩
  rw [hlow, List.append_nil]
  by_cases hf1 : st.dupMap1.filter (wantHigh env copy1) = []
  · -- a lowmem page of pageset 1 is left without a pbe: no lowmem pbe was made at all
    obtain ⟨p, ps, hp⟩ := List.exists_cons_of_ne_nil (l := st.dupMap2.filter (wantLow env copy1))
      (fun h => by rw [hf1] at hhl; rw [h] at hll; simp at hhl hll; omega)
    have hmem : p ∈ ps1.bits.filter (wantLow env copy1) := by
      rw [← inv.low_origs, hp]
      simp
    obtain ⟨hp1, hw⟩ := List.mem_filter.mp hmem
    refine ⟨p, hp1, by simp_all [wantLow], fun hp' => ?_⟩
    -- the highmem pbes restore highmem pages
    have hhigh : p ∈ ps1.bits.filter (wantHigh env copy1) := by
      rw [← inv.high_origs]
      exact List.mem_append_left _ hp'
    simp_all [wantHigh, wantLow]
  · -- a highmem page of pageset 1 is left, after every highmem pbe made
    obtain ⟨p, ps, hp⟩ := List.exists_cons_of_ne_nil hf1
    have hnodup : (st.restoreHighmemPblist.map LoadPbe.origAddress ++ p :: ps).Nodup := by
      rw [← hp, inv.high_origs]
      exact (MemoryBitmap.nodup_bits _).filter _
    have hmem : p ∈ ps1.bits.filter (wantHigh env copy1) := by
      rw [← inv.high_origs, hp]
      simp
    obtain ⟨hp1, hw⟩ := List.mem_filter.mp hmem
    exact ⟨p, hp1, by simp_all [wantHigh],
      fun hp' => (List.nodup_append.mp hnodup).2.2 p hp' p List.mem_cons_self rfl⟩

end End

/-! ### The function -/

section Function

variable {a : Arch} {env : LoadEnv} {d : Pagedirs} {allocated : List Nat} {supply : PageSupply}
  {ps1 : MemoryBitmap}

theorem firstPbePages_high {highNeeded : Int} {s s' : PageSupply} {highPbePage : Option Nat}
    {lowPbePage : Nat} (h : firstPbePages ps1 highNeeded s = some (highPbePage, lowPbePage, s'))
    (hnone : highPbePage = none) : highNeeded = 0 := by
  by_contra hn0
  unfold firstPbePages at h
  rw [if_pos hn0] at h
  cases hg : getNonconflictingPage ps1 s.alloc s.conflicting with
  | mk page s1 =>
    rw [hg] at h
    cases page with
    | none => simp [hn0] at h
    | some page =>
      simp only [reduceCtorEq, and_false, if_false] at h
      split at h
      · cases h
        cases hnone
      · cases h

theorem firstPbePages_some (highNeeded : Int) {s : PageSupply}
    (h : (if highNeeded = 0 then 1 else 2) ≤ usable ps1 s.alloc) :
    ∃ highPbePage lowPbePage s', firstPbePages ps1 highNeeded s = some (highPbePage, lowPbePage, s') ∧
      usable ps1 s'.alloc + (if highNeeded = 0 then 1 else 2) = usable ps1 s.alloc := by
  unfold firstPbePages
  by_cases hn0 : highNeeded = 0
  · rw [if_pos hn0] at h ⊢
    have hpos : 0 < usable ps1 s.alloc := by omega
    obtain ⟨lowPbePage, s', hget, hcount⟩ := getNonconflictingPage_some s.conflicting hpos
    simp only [hn0, ne_eq, not_true_eq_false, if_false, false_and, hget]
    exact ⟨none, lowPbePage, s', rfl, hcount⟩
  · rw [if_neg hn0] at h ⊢
    have hpos : 0 < usable ps1 s.alloc := by omega
    obtain ⟨highPbePage, s1, hget1, hcount1⟩ := getNonconflictingPage_some s.conflicting hpos
    have hpos1 : 0 < usable ps1 s1.alloc := by omega
    obtain ⟨lowPbePage, s', hget, hcount⟩ := getNonconflictingPage_some s1.conflicting hpos1
    simp only [hn0, ne_eq, not_false_eq_true, if_true, hget1, reduceCtorEq, and_false, if_false,
      hget]
    exact ⟨some highPbePage, lowPbePage, s', rfl, by omega⟩

theorem toiGetPageset1LoadAddresses_ok {r : LoadResult}
    (hr : toiGetPageset1LoadAddresses a env d allocated supply = some r) (h0 : r.result = 0) :
    ∃ highPbePage lowPbePage s st,
      firstPbePages d.pageset1Map d.pagedir1Highmem supply = some (highPbePage, lowPbePage, s) ∧
      (countPages env d.pageset1Map (allocateAll d allocated)).pageset1CopyMap.bits.foldlM
        (pbeStep a env d.pageset1Map) (pbeLoopStart d (countPages env d.pageset1Map
          (allocateAll d allocated)) highPbePage lowPbePage s) = .ok st ∧
      r = st.finish := by
  unfold toiGetPageset1LoadAddresses at hr
  cases hfirst : firstPbePages d.pageset1Map d.pagedir1Highmem supply with
  | none =>
    simp only [hfirst, Option.some.injEq] at hr
    subst hr
    simp [ENOMEM] at h0
  | some first =>
    obtain ⟨highPbePage, lowPbePage, s⟩ := first
    simp only [hfirst] at hr
    cases hloop : (countPages env d.pageset1Map (allocateAll d allocated)).pageset1CopyMap.bits.foldlM
        (pbeStep a env d.pageset1Map) (pbeLoopStart d (countPages env d.pageset1Map
          (allocateAll d allocated)) highPbePage lowPbePage s) with
    | ok st =>
      simp only [hloop, Option.some.injEq] at hr
      exact ⟨highPbePage, lowPbePage, s, st, rfl, hloop, hr.symm⟩
    | error e =>
      cases e with
      | bug => simp [hloop] at hr
      | noMemory st =>
        simp only [hloop, Option.some.injEq] at hr
        subst hr
        simp [PbeLoop.noMemoryResult, ENOMEM] at h0

theorem loadDirect_countPages (copyMap : MemoryBitmap) (p : Nat) :
    loadDirect env (countPages env ps1 copyMap).pageset1CopyMap p = loadDirect env copyMap p := by
  cases hn : env.noDirectLoad <;> simp [loadDirect, hn, MemoryBitmap.testBit, mem_countPages]

theorem wantHigh_countPages (copyMap : MemoryBitmap) :
    wantHigh env (countPages env ps1 copyMap).pageset1CopyMap = wantHigh env copyMap := by
  funext p
  simp only [wantHigh, loadDirect_countPages]

theorem wantLow_countPages (copyMap : MemoryBitmap) :
    wantLow env (countPages env ps1 copyMap).pageset1CopyMap = wantLow env copyMap := by
  funext p
  simp only [wantLow, loadDirect_countPages]

end Function

/-- The pages the allocate-everything loop got suffice for the pbes pageset 1 needs: lowmem
pages outside pageset 1 for its lowmem pages not loaded in place, and pages outside pageset 1
for all its pages not loaded in place. -/
def EnoughPages (env : LoadEnv) (ps1 copyMap : MemoryBitmap) : Prop :=
  (ps1.bits.filter (wantLow env copyMap)).length ≤ lowPages env ps1 copyMap.bits ∧
    (ps1.bits.filter (wantLow env copyMap)).length +
        (ps1.bits.filter (wantHigh env copyMap)).length ≤
      lowPages env ps1 copyMap.bits + highPages env ps1 copyMap.bits

instance (env : LoadEnv) (ps1 copyMap : MemoryBitmap) : Decidable (EnoughPages env ps1 copyMap) :=
  inferInstanceAs (Decidable (_ ∧ _))

theorem toFree_nonneg_iff {env : LoadEnv} {d : Pagedirs}
    (hsize : d.pagedir1Size = d.pageset1Map.bits.length)
    (hhigh : d.pagedir1Highmem = (d.pageset1Map.bits.filter env.pageHighMem).length)
    (copyMap : MemoryBitmap) :
    0 ≤ (toFree d (countPages env d.pageset1Map copyMap)).2.1 ↔
      EnoughPages env d.pageset1Map copyMap := by
  obtain ⟨hHd, hLd⟩ := countPages_direct env d.pageset1Map copyMap
  obtain ⟨hh, hl, -, -⟩ :=
    foldl_countStep_counts env d.pageset1Map copyMap.bits ⟨copyMap, [], 0, 0, 0, 0⟩
  rw [← countPages] at hh hl
  dsimp only at hh hl
  rw [wantHigh_countPages] at hHd
  rw [wantLow_countPages] at hLd
  have hzones := List.length_eq_length_filter_add (l := d.pageset1Map.bits) env.pageHighMem
  rw [← not_lt, toFree_lowToFree_neg]
  unfold EnoughPages
  constructor
  · intro h
    constructor <;> omega
  · intro h
    omega

/-! ### A walk with no page left for pbe pages -/

section Dry

variable {a : Arch} {env : LoadEnv} {ps1 : MemoryBitmap} {st st' : PbeLoop} {pfn : Nat}

theorem getNonconflictingPage_dry : ∀ {alloc : List Nat} (conflicting : List Nat),
    usable ps1 alloc = 0 → (getNonconflictingPage ps1 alloc conflicting).1 = none
  | [], _, _ => rfl
  | q :: qs, c, h => by
    unfold getNonconflictingPage
    by_cases hq : ps1.testBit q
    · rw [if_pos hq]
      rw [usable_cons, if_pos hq] at h
      exact getNonconflictingPage_dry (q :: c) h
    · rw [usable_cons, if_neg hq] at h
      omega

theorem getNextPbe_dry {page slot : Nat} {s s' : PageSupply} {next : Nat × Nat}
    (hdry : usable ps1 s.alloc = 0) (h : getNextPbe a ps1 page slot s = (some next, s')) :
    s' = s ∧ next = (page, slot + 1) ∧
      slot * sizeofPbe a % a.pageSize + 2 * sizeofPbe a ≤ a.pageSize := by
  unfold getNextPbe at h
  split_ifs at h with hfit
  · have hnone := getNonconflictingPage_dry s.conflicting hdry
    cases hg : getNonconflictingPage ps1 s.alloc s.conflicting with
    | mk page? s'' =>
      rw [hg] at hnone h
      subst hnone
      cases h
  · cases h
    exact ⟨rfl, rfl, by omega⟩

theorem succ_lt_pbesPerPage {slot : Nat} (hslot : slot < pbesPerPage a)
    (hfit : slot * sizeofPbe a % a.pageSize + 2 * sizeofPbe a ≤ a.pageSize) :
    slot + 1 < pbesPerPage a := by
  unfold pbesPerPage at hslot ⊢
  unfold sizeofPbe at hfit
  have hsz : 0 < 3 * a.sizeofLong := Nat.pos_of_ne_zero fun h => by
    rw [h, Nat.div_zero] at hslot
    omega
  -- the slot itself lies inside the page, so the offset is not reduced
  have hend : (slot + 1) * (3 * a.sizeofLong) ≤ a.pageSize := (Nat.le_div_iff_mul_le hsz).mp hslot
  rw [Nat.succ_mul] at hend
  rw [Nat.mod_eq_of_lt (by omega)] at hfit
  have hnext : (slot + 2) * (3 * a.sizeofLong) ≤ a.pageSize := by
    rw [Nat.add_mul]
    omega
  have := (Nat.le_div_iff_mul_le hsz).mpr hnext
  omega

/-- What a walk keeps when the allocator has no page left for pbe pages: it stays so, and the
lowmem pbes fill the first lowmem pbe page one slot each, short of its last slot. -/
structure SlotInv (a : Arch) (ps1 : MemoryBitmap) (st : PbeLoop) : Prop where
  dry : usable ps1 st.supply.alloc = 0
  lowSlot_eq : st.lowSlot = st.restorePblist.length
  lowSlot_lt : st.lowSlot < pbesPerPage a

theorem pbeStep_ok_cases (h : pbeStep a env ps1 st pfn = .ok st') :
    st' = st ∨ (∃ isHigh, st' = st.freePage pfn isHigh) ∨
      (∃ isHigh, addHighPbe a env ps1 st pfn isHigh = .ok st') ∨
      addLowPbe a env ps1 st pfn = .ok st' := by
  dsimp only [pbeStep] at h
  split_ifs at h
  · cases h
    exact .inl rfl
  · cases h
    exact .inr (.inl ⟨_, rfl⟩)
  · exact .inr (.inr (.inl ⟨_, h⟩))
  · exact .inr (.inr (.inr h))

/-- Every step of the walk that goes on keeps `SlotInv`. -/
theorem SlotInv.step (inv : SlotInv a ps1 st) (h : pbeStep a env ps1 st pfn = .ok st') :
    SlotInv a ps1 st' := by
  rcases pbeStep_ok_cases h with rfl | ⟨isHigh, rfl⟩ | ⟨isHigh, h⟩ | h
  · exact inv
  · exact ⟨inv.dry, inv.lowSlot_eq, inv.lowSlot_lt⟩
  · obtain ⟨orig, dupMap1, page, next, s, -, -, hget, rfl⟩ := addHighPbe_ok h
    obtain ⟨rfl, -, -⟩ := getNextPbe_dry inv.dry hget
    exact ⟨inv.dry, inv.lowSlot_eq, inv.lowSlot_lt⟩
  · obtain ⟨orig, dupMap2, next, s, -, hget, rfl⟩ := addLowPbe_ok h
    obtain ⟨rfl, rfl, hfit⟩ := getNextPbe_dry inv.dry hget
    exact ⟨inv.dry, by simp [inv.lowSlot_eq], succ_lt_pbesPerPage inv.lowSlot_lt hfit⟩

theorem SlotInv.run {rest : List Nat} (inv : SlotInv a ps1 st)
    (h : rest.foldlM (pbeStep a env ps1) st = .ok st') : SlotInv a ps1 st' :=
  foldlM_except_invariant (P := fun _ st => SlotInv a ps1 st)
    (fun _ _ _ _ inv hs => inv.step hs) inv h

end Dry

/-! ### What the function returns -/

section Result

variable {a : Arch} {env : LoadEnv} {d : Pagedirs} {allocated : List Nat} {supply : PageSupply}

theorem mem_allocated_of_countPages (hcopy : d.pageset1CopyMap.bits = []) {x : Nat}
    (hx : x ∈ (countPages env d.pageset1Map (allocateAll d allocated)).pageset1CopyMap.bits) :
    x ∈ allocated := by
  have h := ((mem_countPages env d.pageset1Map _).mp hx).1
  rw [allocateAll, MemoryBitmap.mem_foldl_setBit, hcopy] at h
  simpa using h

/-- What a return of `0` should mean of the lists: every page of pageset 1 not loaded in place has
one pbe, on the list of its zone; the lists go in increasing pfn order; each copy goes to its own
page, one of `allocated` and not of pageset 1. -/
structure PbesComplete (env : LoadEnv) (ps1 : MemoryBitmap) (allocated : List Nat)
    (r : LoadResult) : Prop where
  high : r.restoreHighmemPblist.map LoadPbe.origAddress =
    ps1.bits.filter (fun p => env.pageHighMem p && !loadDirect env r.pageset1CopyMap p)
  low : r.restorePblist.map LoadPbe.origAddress =
    ps1.bits.filter (fun p => !env.pageHighMem p && !loadDirect env r.pageset1CopyMap p)
  high_sorted : (r.restoreHighmemPblist.map LoadPbe.origAddress).Pairwise (· < ·)
  low_sorted : (r.restorePblist.map LoadPbe.origAddress).Pairwise (· < ·)
  addresses_nodup :
    (r.restoreHighmemPblist.map LoadPbe.address ++ r.restorePblist.map LoadPbe.address).Nodup
  addresses_mem : ∀ x ∈ r.restoreHighmemPblist.map LoadPbe.address ++
    r.restorePblist.map LoadPbe.address, x ∈ allocated ∧ x ∉ ps1.bits

/-- The pfns the function meets fit in its `int` locals `pfn`, `orig_low_pfn` and `orig_high_pfn`,
none of them `-1`, and so do the counts it keeps of them, which count distinct pfns: on such
inputs the model's unbounded pfns and counters are the values C computes. -/
def FitsInt (d : Pagedirs) (allocated : List Nat) (supply : PageSupply) : Prop :=
  ∀ pfn ∈ d.pageset1Map.bits ++ d.pageset1CopyMap.bits ++ allocated ++ supply.alloc,
    pfn < 2 ^ 31 - 1

instance (d : Pagedirs) (allocated : List Nat) (supply : PageSupply) :
    Decidable (FitsInt d allocated supply) :=
  inferInstanceAs (Decidable (∀ _ ∈ _, _))

/-- When the pages the allocate-everything loop got suffice, a return of `0` means the lists are
complete, and the function went through `out:`. The pfns fit in an `int` (`_hint`), where the
model is the code. -/
theorem load_addresses_complete {r : LoadResult} (_hint : FitsInt d allocated supply)
    (hsize : d.pagedir1Size = d.pageset1Map.bits.length)
    (hhigh : d.pagedir1Highmem = (d.pageset1Map.bits.filter env.pageHighMem).length)
    (hcopy : d.pageset1CopyMap.bits = [])
    (henough : EnoughPages env d.pageset1Map (allocateAll d allocated))
    (hr : toiGetPageset1LoadAddresses a env d allocated supply = some r) (h0 : r.result = 0) :
    PbesComplete env d.pageset1Map allocated r ∧
      r.irqsEnabled = true ∧ r.nonbootCpusEnabled = true ∧ r.dupMapsFreed = true := by
  obtain ⟨highPbePage, lowPbePage, s, st, hfirst, hloop, rfl⟩ := toiGetPageset1LoadAddresses_ok hr h0
  have inv := (loopInv_start hsize hhigh (allocateAll d allocated)
    (fun h => Int.ofNat_eq_zero.mp (firstPbePages_high hfirst h)) lowPbePage s).run hloop
  obtain ⟨hH, hL⟩ := inv.complete ((toFree_nonneg_iff hsize hhigh _).mpr henough)
  -- `load_direct` after the return reads pageset 1 as after the first walk
  have hwant (z : Nat → Bool) : d.pageset1Map.bits.filter
      (fun p => z p && !loadDirect env st.pageset1CopyMap p) = d.pageset1Map.bits.filter
      (fun p => z p && !loadDirect env (countPages env d.pageset1Map
        (allocateAll d allocated)).pageset1CopyMap p) :=
    List.filter_congr fun p hp => by rw [loadDirect_congr inv.copy_agree hp]
  have hsorted := d.pageset1Map.sorted
  refine ⟨⟨?_, ?_, ?_, ?_, inv.addresses_nodup, fun x hx => ?_⟩, rfl, rfl, rfl⟩
  · rw [PbeLoop.finish, hwant, hH]
    rfl
  · rw [PbeLoop.finish, hwant, hL]
    rfl
  · rw [PbeLoop.finish, hH]
    exact hsorted.filter _
  · rw [PbeLoop.finish, hL]
    exact hsorted.filter _
  · obtain ⟨h1, -, h3⟩ := inv.addresses_mem x hx
    exact ⟨mem_allocated_of_countPages hcopy h1, h3⟩

/-- Pagedir 1 of two lowmem pages, 10 and 11, and an empty copy map. -/
def twoLowPages : Pagedirs := ⟨2, 0, 0, 0, ⟨[10, 11], by decide, 0⟩, MemoryBitmap.empty⟩

/-- A machine without highmem, loading in place allowed. -/
def lowmemOnly : LoadEnv := ⟨fun _ => false, false⟩

/-- Page 11 is loaded in place, and page 20 takes the copy of page 10. -/
theorem load_addresses_complete_one_copy :
    ∃ r, toiGetPageset1LoadAddresses Arch.x86_64 lowmemOnly twoLowPages [11, 20] ⟨[30, 31], []⟩ =
        some r ∧ PbesComplete lowmemOnly twoLowPages.pageset1Map [11, 20] r ∧
      r.irqsEnabled = true ∧ r.nonbootCpusEnabled = true ∧ r.dupMapsFreed = true := by
  obtain ⟨r, hr⟩ : ∃ r, toiGetPageset1LoadAddresses Arch.x86_64 lowmemOnly twoLowPages [11, 20]
      ⟨[30, 31], []⟩ = some r := ⟨_, rfl⟩
  have hresult : (toiGetPageset1LoadAddresses Arch.x86_64 lowmemOnly twoLowPages [11, 20]
      ⟨[30, 31], []⟩).map LoadResult.result = some 0 := by decide
  rw [hr, Option.map_some, Option.some.injEq] at hresult
  exact ⟨r, hr, load_addresses_complete (by decide) (by decide) (by decide) rfl (by decide) hr
    hresult⟩

/-- When the lowmem pages are too few, `low_to_free` is negative, and C reads it as true: every
lowmem page outside pageset 1 is freed and no lowmem pbe is made, yet, the pbe pages found,
the function returns `0`, with a page of pageset 1 that needs a pbe left without one. -/
theorem load_addresses_short_of_pages
    (hsize : d.pagedir1Size = d.pageset1Map.bits.length)
    (hhigh : d.pagedir1Highmem = (d.pageset1Map.bits.filter env.pageHighMem).length)
    (hcopy : d.pageset1CopyMap.bits = [])
    (hshort : ¬EnoughPages env d.pageset1Map (allocateAll d allocated))
    (hsupply : allocated.length + 2 ≤
      (supply.alloc.filter fun p => !d.pageset1Map.testBit p).length) :
    ∃ r, toiGetPageset1LoadAddresses a env d allocated supply = some r ∧ r.result = 0 ∧
      r.restorePblist = [] ∧ ∃ p ∈ d.pageset1Map.bits, loadDirect env r.pageset1CopyMap p = false ∧
        p ∉ (r.restoreHighmemPblist ++ r.restorePblist).map LoadPbe.origAddress := by
  have husable : usable d.pageset1Map supply.alloc =
      (supply.alloc.filter fun p => !d.pageset1Map.testBit p).length := rfl
  have h2 : (if (d.pagedir1Highmem : Int) = 0 then 1 else 2) ≤ usable d.pageset1Map supply.alloc := by
    split <;> omega
  obtain ⟨highPbePage, lowPbePage, s, hfirst, hcount⟩ := firstPbePages_some d.pagedir1Highmem h2
  have hcount' : usable d.pageset1Map supply.alloc ≤ usable d.pageset1Map s.alloc + 2 := by
    split at hcount <;> omega
  have inv := loopInv_start hsize hhigh (allocateAll d allocated)
    (fun h => Int.ofNat_eq_zero.mp (firstPbePages_high hfirst h)) lowPbePage s
  -- the walk visits pages the allocate-everything loop got, each once
  have hwalk : usable d.pageset1Map
      (countPages env d.pageset1Map (allocateAll d allocated)).pageset1CopyMap.bits ≤
        allocated.length :=
    calc _ ≤ (countPages env d.pageset1Map (allocateAll d allocated)).pageset1CopyMap.bits.length :=
          List.length_filter_le _ _
      _ ≤ allocated.length := (MemoryBitmap.nodup_bits _).length_le_of_subset
          fun x hx => mem_allocated_of_countPages hcopy hx
  obtain ⟨st, hloop⟩ : ∃ st,
      (countPages env d.pageset1Map (allocateAll d allocated)).pageset1CopyMap.bits.foldlM
        (pbeStep a env d.pageset1Map) (pbeLoopStart d (countPages env d.pageset1Map
          (allocateAll d allocated)) highPbePage lowPbePage s) = .ok st :=
    inv.run_ok (by simp only [pbeLoopStart]; omega)
  have inv' := inv.run hloop
  have hneg : (toFree d (countPages env d.pageset1Map (allocateAll d allocated))).2.1 < 0 := by
    rw [← not_le, toFree_nonneg_iff hsize hhigh]
    exact hshort
  obtain ⟨hlow, p, hp, hld, hnot⟩ := inv'.missing hneg
  refine ⟨st.finish, ?_, rfl, hlow, p, hp, ?_, hnot⟩
  · unfold toiGetPageset1LoadAddresses
    simp only [hfirst, hloop]
  · rw [PbeLoop.finish, loadDirect_congr inv'.copy_agree hp]
    exact hld

theorem load_addresses_short_one_page :
    ¬EnoughPages lowmemOnly twoLowPages.pageset1Map (allocateAll twoLowPages [20]) ∧
    ∃ r, toiGetPageset1LoadAddresses Arch.x86_64 lowmemOnly twoLowPages [20] ⟨[30, 31, 32], []⟩ =
        some r ∧ r.result = 0 ∧ r.restorePblist = [] ∧
      ∃ p ∈ twoLowPages.pageset1Map.bits, loadDirect lowmemOnly r.pageset1CopyMap p = false ∧
        p ∉ (r.restoreHighmemPblist ++ r.restorePblist).map LoadPbe.origAddress :=
  have hshort : ¬EnoughPages lowmemOnly twoLowPages.pageset1Map (allocateAll twoLowPages [20]) := by
    decide
  ⟨hshort, load_addresses_short_of_pages (by decide) (by decide) rfl hshort (by decide)⟩

/-- When the allocator has no page left after the first pbe pages and the lowmem pbes need
more slots than the first lowmem pbe page has, `get_next_pbe` fails inside the loop, and the
function returns `-ENOMEM` from there: it skips `out:`, and leaves interrupts and the nonboot
CPUs disabled and the duplicate maps allocated. The pfns fit in an `int` (`_hint`). -/
theorem load_addresses_enomem_skips_out (_hint : FitsInt d allocated supply)
    (hpbe : 0 < pbesPerPage a)
    (hsize : d.pagedir1Size = d.pageset1Map.bits.length)
    (hhigh : d.pagedir1Highmem = (d.pageset1Map.bits.filter env.pageHighMem).length)
    (henough : EnoughPages env d.pageset1Map (allocateAll d allocated))
    (hmany : pbesPerPage a ≤
      (d.pageset1Map.bits.filter (wantLow env (allocateAll d allocated))).length)
    (hdry : (supply.alloc.filter fun p => !d.pageset1Map.testBit p).length =
      if d.pagedir1Highmem = 0 then 1 else 2) :
    ∃ r, toiGetPageset1LoadAddresses a env d allocated supply = some r ∧ r.result = -ENOMEM ∧
      r.irqsEnabled = false ∧ r.nonbootCpusEnabled = false ∧ r.dupMapsFreed = false := by
  have husable : usable d.pageset1Map supply.alloc =
      (supply.alloc.filter fun p => !d.pageset1Map.testBit p).length := rfl
  have hneeded : (if (d.pagedir1Highmem : Int) = 0 then 1 else 2) =
      usable d.pageset1Map supply.alloc := by
    rw [husable, hdry]
    split_ifs <;> omega
  obtain ⟨highPbePage, lowPbePage, s, hfirst, hcount⟩ :=
    firstPbePages_some d.pagedir1Highmem hneeded.le
  -- the first pbe pages take the allocator's last pages outside pageset 1
  have hs : usable d.pageset1Map s.alloc = 0 := by omega
  have inv := loopInv_start hsize hhigh (allocateAll d allocated)
    (fun h => Int.ofNat_eq_zero.mp (firstPbePages_high hfirst h)) lowPbePage s
  have slots : SlotInv a d.pageset1Map (pbeLoopStart d (countPages env d.pageset1Map
      (allocateAll d allocated)) highPbePage lowPbePage s) := ⟨hs, rfl, hpbe⟩
  cases hloop : (countPages env d.pageset1Map (allocateAll d allocated)).pageset1CopyMap.bits.foldlM
      (pbeStep a env d.pageset1Map) (pbeLoopStart d (countPages env d.pageset1Map
        (allocateAll d allocated)) highPbePage lowPbePage s) with
  | ok st =>
    -- a walk to the end puts every lowmem pbe in the first page, which has too few slots
    exfalso
    have hlow := ((inv.run hloop).complete ((toFree_nonneg_iff hsize hhigh _).mpr henough)).2
    rw [wantLow_countPages] at hlow
    have hlen := congrArg List.length hlow
    rw [List.length_map] at hlen
    have hslots := slots.run hloop
    have := hslots.lowSlot_eq
    have := hslots.lowSlot_lt
    omega
  | error e =>
    cases e with
    | bug => exact absurd hloop inv.run_ne_bug
    | noMemory st =>
      refine ⟨st.noMemoryResult, ?_, rfl, rfl, rfl, rfl⟩
      unfold toiGetPageset1LoadAddresses
      simp only [hfirst, hloop]

/-- A machine of 64-byte pages and 8-byte longs: two pbes to a page. -/
def tinyPages : Arch := ⟨6, 8, 4⟩

/-- Both pages of pageset 1 need a copy, and the allocator has one page for the first lowmem pbe
page and none for a second. -/
theorem load_addresses_enomem_two_copies :
    ∃ r, toiGetPageset1LoadAddresses tinyPages lowmemOnly twoLowPages [20, 21] ⟨[30], []⟩ =
        some r ∧ r.result = -ENOMEM ∧
      r.irqsEnabled = false ∧ r.nonbootCpusEnabled = false ∧ r.dupMapsFreed = false :=
  load_addresses_enomem_skips_out (by decide) (by decide) (by decide) (by decide) (by decide)
    (by decide) (by decide)

end Result

end TuxOnIceFastboot.Restore
