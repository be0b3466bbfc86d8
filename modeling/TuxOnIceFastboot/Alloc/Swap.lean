import TuxOnIceFastboot.Alloc.Storage
import TuxOnIceFastboot.BlockIO.State

/-!
# The swap allocator (`tuxonice_swap.c`)

`toi_swap_allocate_storage(request)` takes swap entries from `get_swap_page` until it holds
`pages_to_get = request + extra_pages - swapextents.size + header_pages_reserved` of them on
devices that are not RAM disks, gathering runs of consecutive entries into extents of
`swapextents`; it then rebuilds the per-device block chains from the entries
(`get_main_pool_phys_params`) and applies the header reservation on them.
`toi_swap_storage_allocated` reports `raw_to_real(swap_pages_allocated - header_pages_reserved)`.

The rest of the kernel is `SwapEnv`: the swap devices, `map_swap_page`, whether `kmalloc` of an
extent succeeds; the entries `get_swap_page` hands out are an argument of the call. The entries
given back by `swap_free` are not tracked.

The count of entries obtained never passes `pages_to_get` (`allocLoop_bounded`,
`flushExtents_le`), so a call that returns `0` adds exactly `pages_to_get` pages to
`swap_pages_allocated` (`toiSwapAllocateStorage_allocated`). From a state with nothing allocated,
whatever entries it is given, `toi_swap_storage_allocated` then reports
`raw_to_real(request + extra_pages)`: `1023` for a request of `1024` records on x86-64
(`swap_storage_allocated_short`), one short of the request.

Two failures of the bookkeeping are shown on concrete runs: the loop that adds the open extents
stops at the first that fails and forgets those of the later swap files, which stay counted
(`swap_allocation_loses_pending_run`); and `get_main_pool_phys_params` keeps sectors in `int`s,
so a device whose swap area lies past sector `2 ^ 32` gets block chains of the wrong sectors
(`block_chain_sectors_truncated`).
-/

namespace TuxOnIceFastboot.Alloc.Swap

open TuxOnIceFastboot.Lib TuxOnIceFastboot.Extent TuxOnIceFastboot.BlockIO

/-- `MAX_SWAPFILES_SHIFT`. -/
def maxSwapfilesShift : Nat := 5

/-- The fields of `struct swap_info_struct` the allocator reads: the opened block device, by its
number `bd_dev` (`none` for an unused slot), and whether its disk's name starts with `"ram"`. -/
structure SwapInfo where
  bdev : Option Nat
  ramDisk : Bool
  deriving DecidableEq, Repr

/-- What the rest of the kernel answers the swap allocator. `mapSwapPage t offset` is
`map_swap_page(get_swap_info_struct(t), offset)`. -/
structure SwapEnv where
  arch : Arch
  maxSwapfiles : Nat
  swapInfo : Nat → SwapInfo
  mapSwapPage : Nat → Nat → Nat
  allocOk : Bool

/-- The static state of `tuxonice_swap.c` that allocation reads and writes, with the block I/O
state `apply_header_reservation` moves. -/
structure SwapState where
  swapextents : HibernateExtentChain
  blockChain : Nat → HibernateExtentChain
  devinfo : Nat → ToiBdevInfo
  headerPagesReserved : Int
  swapPagesAllocated : Int
  bio : BioState

variable (env : SwapEnv)

/-- `swp_type`: the top `MAX_SWAPFILES_SHIFT` bits of an entry. -/
def swpType (val : Nat) : Nat := val >>> (env.arch.longBits - maxSwapfilesShift)

/-- `swp_offset`: the other bits. -/
def swpOffset (val : Nat) : Nat := val &&& ((1 <<< (env.arch.longBits - maxSwapfilesShift)) - 1)

/-- The chains `toi_writer_posn` walks for the swap allocator: `block_chain[0..MAX_SWAPFILES)`. -/
def chains (s : SwapState) : List HibernateExtentChain :=
  (List.range env.maxSwapfiles).map s.blockChain

/-- A device counts in `gotten`: it is not `ignored`. -/
def counted (devinfo : Nat → ToiBdevInfo) (n : Nat) : Bool := (devinfo n).ignored = 0

/-! ### `toi_swap_allocate_storage` -/

/-- The first loop of `toi_swap_allocate_storage`, over the swap files: clear `to_add` (done by
the caller) and describe each device; RAM disks are ignored. -/
def setupDevinfo (devinfo : Nat → ToiBdevInfo) (i : Nat) : ToiBdevInfo :=
  if i < env.maxSwapfiles then
    match (env.swapInfo i).bdev with
    | none => devinfo i
    | some d =>
      if (env.swapInfo i).ramDisk then { devinfo i with ignored := 1 }
      else { devinfo i with ignored := 0, bdev := d, devT := d, bmapShift := 3, blocksPerPage := 1 }
  else devinfo i

/-- The locals of the allocation loop: per swap file, whether an extent is open (`to_add`) and
its bounds, the entries counted so far, and `swapextents`. -/
structure AllocLoop where
  toAdd : Nat → Bool
  extentMin : Nat → Nat
  extentMax : Nat → Nat
  gotten : Int
  swapextents : HibernateExtentChain

/-- `extent_max[n] - extent_min[n] + 1`, the entries of the open extent of swap file `n`. -/
def AllocLoop.extentLength (l : AllocLoop) (n : Nat) : Int :=
  ((l.extentMax n - l.extentMin n + 1 : Nat) : Int)

/-- `gotten` after losing the open extent of swap file `n`, when it is counted. -/
def AllocLoop.dropExtent (devinfo : Nat → ToiBdevInfo) (l : AllocLoop) (n : Nat) : Int :=
  if counted devinfo n then toInt32 (l.gotten - l.extentLength n) else l.gotten

/-- `gotten` after one more entry of swap file `n`. -/
def AllocLoop.count (devinfo : Nat → ToiBdevInfo) (l : AllocLoop) (n : Nat) : Int :=
  if counted devinfo n then l.gotten + 1 else l.gotten

/-- The body of the allocation loop on the entry `v`: `.inl` the state the loop goes on with,
`.inr` the state it ends in (`break`). -/
def allocStep (devinfo : Nat → ToiBdevInfo) (l : AllocLoop) (v : Nat) : AllocLoop ⊕ AllocLoop :=
  let n := swpType env v
  if !l.toAdd n then
    .inl { l with
      toAdd := Function.update l.toAdd n true
      extentMin := Function.update l.extentMin n v
      extentMax := Function.update l.extentMax n v
      gotten := l.count devinfo n }
  else if v = l.extentMax n + 1 then
    .inl { l with
      extentMax := Function.update l.extentMax n (l.extentMax n + 1)
      gotten := l.count devinfo n }
  else
    let r := toiAddToExtentChain env.allocOk l.swapextents (l.extentMin n) (l.extentMax n)
    if r.2 ≠ 0 then
      -- `free_swap_range`, `swap_free(entry)`: the open extent is dropped
      .inr { l with
        swapextents := r.1
        gotten := l.dropExtent devinfo n
        toAdd := Function.update l.toAdd n false }
    else
      .inl { l with
        swapextents := r.1
        extentMin := Function.update l.extentMin n v
        extentMax := Function.update l.extentMax n v
        gotten := l.count devinfo n }

/-- `while (gotten < pages_to_get)`, on the entries `get_swap_page` returns (`0` when it has
none left). -/
def allocLoop (devinfo : Nat → ToiBdevInfo) (pagesToGet : Int) :
    List Nat → AllocLoop → AllocLoop
  | [], l => l
  | v :: vs, l =>
    if pagesToGet ≤ l.gotten ∨ v = 0 then l
    else
      match allocStep env devinfo l v with
      | .inl l => allocLoop devinfo pagesToGet vs l
      | .inr l => l

/-- The second loop: add each open extent to `swapextents`; the first that fails is dropped and
ends the loop. -/
def flushExtents (devinfo : Nat → ToiBdevInfo) : List Nat → AllocLoop → AllocLoop
  | [], l => l
  | i :: is, l =>
    if !l.toAdd i then flushExtents devinfo is l
    else
      let r := toiAddToExtentChain env.allocOk l.swapextents (l.extentMin i) (l.extentMax i)
      if r.2 = 0 then flushExtents devinfo is { l with swapextents := r.1 }
      else { l with swapextents := r.1, gotten := l.dropExtent devinfo i }

/-! ### `get_main_pool_phys_params` -/

/-- `free_block_chains`. -/
def freeBlockChains (blockChain : Nat → HibernateExtentChain) (i : Nat) : HibernateExtentChain :=
  if i < env.maxSwapfiles ∧ (blockChain i).extents ≠ [] then toiPutExtentChain (blockChain i)
  else blockChain i

/-- `add_blocks_to_extent_chain(chain, start, end)`: on failure every block chain is freed. -/
def addBlocksToExtentChain (blockChain : Nat → HibernateExtentChain) (chain start stop : Int) :
    (Nat → HibernateExtentChain) × Int :=
  let w := env.arch.longBits
  let r := toiAddToExtentChain env.allocOk (blockChain chain.toNat) (toUnsigned w start)
    (toUnsigned w stop)
  let blockChain := Function.update blockChain chain.toNat r.1
  if r.2 ≠ 0 then (freeBlockChains env blockChain, -ENOMEM) else (blockChain, 0)

/-- The locals of `get_main_pool_phys_params`'s loop: the open run of sectors (`int`s, `-1`
for none) and the chains built so far. -/
structure PhysLoop where
  extentMin : Int
  extentMax : Int
  lastChain : Int
  blockChain : Nat → HibernateExtentChain

/-- The loop over the entries of `swapextents`: consecutive sectors of one device make one
extent of its block chain. Stops with `-ENOMEM` when an extent cannot be added. -/
def physLoop (devinfo : Nat → ToiBdevInfo) : List Nat → PhysLoop → PhysLoop × Int
  | [], l => (l, 0)
  | address :: rest, l =>
    let n := swpType env address
    let newSector := env.mapSwapPage n (swpOffset env address)
    if !counted devinfo n then physLoop devinfo rest l
    else if newSector = toUnsigned env.arch.longBits (l.extentMax + 1) ∧ l.lastChain = n then
      physLoop devinfo rest { l with extentMax := l.extentMax + 1 }
    else
      let r := if l.extentMin > -1 then
          addBlocksToExtentChain env l.blockChain l.lastChain l.extentMin l.extentMax
        else (l.blockChain, 0)
      if r.2 ≠ 0 then ({ l with blockChain := r.1 }, r.2)
      else
        physLoop devinfo rest { l with
          blockChain := r.1
          extentMin := toInt32 newSector
          extentMax := toInt32 newSector
          lastChain := n }

/-- `apply_header_reservation` of the swap allocator, on its block chains. -/
def applyHeaderReservation (s : SwapState) : Option (SwapState × Int) := do
  let (bio, r) ← BlockIO.applyHeaderReservation (chains env s) s.devinfo s.headerPagesReserved
    s.bio
  pure ({ s with bio := bio }, r)

/-- `get_main_pool_phys_params`: rebuild the block chains from `swapextents`, then apply the
header reservation. -/
def getMainPoolPhysParams (s : SwapState) : Option (SwapState × Int) :=
  let r := physLoop env s.devinfo s.swapextents.values ⟨-1, -1, -1, freeBlockChains env s.blockChain⟩
  if r.2 ≠ 0 then some ({ s with blockChain := r.1.blockChain }, r.2)
  else
    let l := r.1
    let r := if l.extentMin > -1 then
        addBlocksToExtentChain env l.blockChain l.lastChain l.extentMin l.extentMax
      else (l.blockChain, 0)
    if r.2 ≠ 0 then some ({ s with blockChain := r.1 }, -ENOMEM)
    else applyHeaderReservation env { s with blockChain := r.1 }

/-- `pages_to_get` of `toi_swap_allocate_storage(request)`. -/
def pagesToGet (request : Int) (s : SwapState) : Int :=
  toInt32 (request + extraPages env.arch request - s.swapextents.size + s.headerPagesReserved)

/-- `toi_swap_allocate_storage(request)`, with the entries `get_swap_page` hands out. -/
def toiSwapAllocateStorage (supply : List Nat) (request : Int) (s : SwapState) :
    Option (SwapState × Int) := do
  let pagesToGet := pagesToGet env request s
  if pagesToGet < 1 then applyHeaderReservation env s
  else
    let devinfo := setupDevinfo env s.devinfo
    let l := allocLoop env devinfo pagesToGet supply
      ⟨fun _ => false, fun _ => 0, fun _ => 0, 0, s.swapextents⟩
    let l := flushExtents env devinfo (List.range env.maxSwapfiles) l
    let result := if l.gotten < pagesToGet then -ENOSPC else 0
    let (s, result2) ← getMainPoolPhysParams env { s with
      devinfo := devinfo
      swapextents := l.swapextents
      swapPagesAllocated := s.swapPagesAllocated + l.gotten }
    pure (s, if result ≠ 0 then result else result2)

/-- `toi_swap_storage_allocated`. -/
def toiSwapStorageAllocated (s : SwapState) : Int :=
  toInt32 (rawToReal env.arch (s.swapPagesAllocated - s.headerPagesReserved))

/-- `toi_swap_reserve_header_space`. -/
def toiSwapReserveHeaderSpace (request : Int) (s : SwapState) : SwapState :=
  { s with headerPagesReserved := request }

/-! ### What allocation counts -/

section Count

variable {env} {devinfo : Nat → ToiBdevInfo}

/-- Every open extent of a counted device is at most `bound` entries long. -/
def AllocLoop.Bounded (devinfo : Nat → ToiBdevInfo) (l : AllocLoop) (bound : Int) : Prop :=
  ∀ n, l.toAdd n = true → counted devinfo n = true → l.extentLength n ≤ bound

theorem AllocLoop.extentLength_pos (l : AllocLoop) (n : Nat) : 1 ≤ l.extentLength n := by
  unfold AllocLoop.extentLength
  omega

theorem AllocLoop.Bounded.mono {l : AllocLoop} {b b' : Int} (h : l.Bounded devinfo b)
    (hb : b ≤ b') : l.Bounded devinfo b' :=
  fun n ho hc => le_trans (h n ho hc) hb

theorem AllocLoop.count_bounds (devinfo : Nat → ToiBdevInfo) (l : AllocLoop) (n : Nat) :
    l.gotten ≤ l.count devinfo n ∧ l.count devinfo n ≤ l.gotten + 1 ∧
      (counted devinfo n = true → l.count devinfo n = l.gotten + 1) := by
  unfold AllocLoop.count
  split <;> simp_all

theorem AllocLoop.dropExtent_bounds (devinfo : Nat → ToiBdevInfo) {l : AllocLoop} {n : Nat}
    {bound : Int} (h0 : 0 ≤ l.gotten)
    (hg : l.gotten < 2 ^ 31) (hb : counted devinfo n = true → l.extentLength n ≤ bound)
    (hb0 : 0 ≤ bound) (hbound : bound < 2 ^ 31) :
    l.dropExtent devinfo n ≤ l.gotten ∧ l.gotten - bound ≤ l.dropExtent devinfo n := by
  have hlen := l.extentLength_pos n
  unfold AllocLoop.dropExtent
  split
  · have := hb ‹_›
    rw [toInt32_of_fits (by omega) (by omega)]
    omega
  · omega

/-- Changing only the extent of swap file `n` keeps every open extent of a counted device within
`gotten`, given that `gotten` does not fall and the new extent is within it. -/
theorem AllocLoop.Bounded.step {l l' : AllocLoop} {n : Nat} (h : l.Bounded devinfo l.gotten)
    (hg : l.gotten ≤ l'.gotten)
    (hother : ∀ m, m ≠ n → l'.toAdd m = l.toAdd m ∧ l'.extentLength m = l.extentLength m)
    (hn : l'.toAdd n = true → counted devinfo n = true → l'.extentLength n ≤ l'.gotten) :
    l'.Bounded devinfo l'.gotten := by
  intro m ho hc
  by_cases hm : m = n
  · subst hm
    exact hn ho hc
  · obtain ⟨hto, hlen⟩ := hother m hm
    rw [hto] at ho
    rw [hlen]
    exact le_trans (h m ho hc) hg

variable (env)

theorem allocStep_continue {l l' : AllocLoop} {v : Nat} (h : allocStep env devinfo l v = .inl l')
    (h0 : 0 ≤ l.gotten) (hb : l.Bounded devinfo l.gotten) :
    l.gotten ≤ l'.gotten ∧ l'.gotten ≤ l.gotten + 1 ∧ l'.Bounded devinfo l'.gotten := by
  obtain ⟨hc1, hc2, hc3⟩ := AllocLoop.count_bounds devinfo l (swpType env v)
  dsimp only [allocStep] at h
  split_ifs at h with hfresh hext hfail <;> cases h
  · -- a new extent for the entry's swap file
    refine ⟨hc1, hc2, hb.step (n := swpType env v) hc1 (fun m hm => ?_) (fun _ hc => ?_)⟩
    · simp [AllocLoop.extentLength, Function.update_of_ne hm]
    · simp [AllocLoop.extentLength, hc3 hc, h0]
  · -- the entry extends the open extent
    refine ⟨hc1, hc2, hb.step (n := swpType env v) hc1 (fun m hm => ?_) (fun _ hc => ?_)⟩
    · simp [AllocLoop.extentLength, Function.update_of_ne hm]
    · have hlen := hb (swpType env v) (by simpa using hfresh) hc
      simp only [AllocLoop.extentLength, Function.update_self] at hlen ⊢
      rw [hc3 hc]
      omega
  · -- the open extent is added, and a new one starts at the entry
    refine ⟨hc1, hc2, hb.step (n := swpType env v) hc1 (fun m hm => ?_) (fun _ hc => ?_)⟩
    · simp [AllocLoop.extentLength, Function.update_of_ne hm]
    · simp [AllocLoop.extentLength, hc3 hc, h0]

theorem allocStep_break {l l' : AllocLoop} {v : Nat} (h : allocStep env devinfo l v = .inr l')
    (h0 : 0 ≤ l.gotten) (hg : l.gotten < 2 ^ 31) (hb : l.Bounded devinfo l.gotten) :
    0 ≤ l'.gotten ∧ l'.gotten ≤ l.gotten ∧ l'.Bounded devinfo l.gotten := by
  dsimp only [allocStep] at h
  split_ifs at h with hfresh hext hfail
  cases h
  have hopen : l.toAdd (swpType env v) = true := by simpa using hfresh
  obtain ⟨hd1, hd2⟩ := AllocLoop.dropExtent_bounds devinfo h0 hg
    (hb (swpType env v) hopen) h0 hg
  refine ⟨le_trans (by omega : (0 : Int) ≤ l.gotten - l.gotten) hd2, hd1, fun m ho hc => ?_⟩
  -- the dropped extent is closed; the others are as they were
  have hm : m ≠ swpType env v := by
    rintro rfl
    simp at ho
  simp only [Function.update_of_ne hm] at ho
  exact hb m ho hc

/-- The allocation loop never counts more than `pages_to_get` entries, nor fewer than none, and
leaves every open extent of a counted device at most `pages_to_get` long. -/
theorem allocLoop_bounded {pagesToGet : Int} (hp : pagesToGet < 2 ^ 31) :
    ∀ (supply : List Nat) (l : AllocLoop), 0 ≤ l.gotten → l.gotten ≤ pagesToGet →
      l.Bounded devinfo l.gotten →
      0 ≤ (allocLoop env devinfo pagesToGet supply l).gotten ∧
        (allocLoop env devinfo pagesToGet supply l).gotten ≤ pagesToGet ∧
        (allocLoop env devinfo pagesToGet supply l).Bounded devinfo pagesToGet
  | [], l, h0, hle, hb => ⟨h0, hle, hb.mono hle⟩
  | v :: vs, l, h0, hle, hb => by
    by_cases hstop : pagesToGet ≤ l.gotten ∨ v = 0
    · rw [allocLoop, if_pos hstop]
      exact ⟨h0, hle, hb.mono hle⟩
    have hlt : l.gotten < pagesToGet := by omega
    rw [allocLoop, if_neg hstop]
    split
    · next l' h =>
      obtain ⟨h1, h2, h3⟩ := allocStep_continue env h h0 hb
      exact allocLoop_bounded hp vs l' (by omega) (by omega) h3
    · next l' h =>
      obtain ⟨h1, h2, h3⟩ := allocStep_break env h h0 (by omega) hb
      exact ⟨h1, by omega, h3.mono hle⟩

/-- Adding the open extents to `swapextents` only ever loses entries. -/
theorem flushExtents_le {bound : Int} (hbound : bound < 2 ^ 31) :
    ∀ (is : List Nat) (l : AllocLoop), 0 ≤ l.gotten → l.gotten ≤ bound →
      l.Bounded devinfo bound → (flushExtents env devinfo is l).gotten ≤ bound
  | [], _, _, hle, _ => hle
  | i :: is, l, h0, hle, hb => by
    simp only [flushExtents]
    split_ifs with hclosed hok
    · exact flushExtents_le hbound is l h0 hle hb
    · exact flushExtents_le hbound is _ h0 hle hb
    · have hopen : l.toAdd i = true := by simpa using hclosed
      exact le_trans (AllocLoop.dropExtent_bounds devinfo h0 (by omega) (hb i hopen) (by omega)
        hbound).1 hle

theorem applyHeaderReservation_frame {s s' : SwapState} {r : Int}
    (h : applyHeaderReservation env s = some (s', r)) : ∃ bio, s' = { s with bio := bio } := by
  simp only [applyHeaderReservation, Option.bind_eq_bind, Option.bind_eq_some_iff,
    Option.pure_def, Option.some.injEq, Prod.mk.injEq] at h
  obtain ⟨⟨bio, _⟩, -, hs, -⟩ := h
  exact ⟨bio, hs.symm⟩

theorem getMainPoolPhysParams_frame {s s' : SwapState} {r : Int}
    (h : getMainPoolPhysParams env s = some (s', r)) :
    ∃ bc bio, s' = { s with blockChain := bc, bio := bio } := by
  dsimp only [getMainPoolPhysParams] at h
  -- a failed extent returns the state with its new chains; otherwise the reservation follows
  split_ifs at h
  all_goals first
    | (cases h; exact ⟨_, _, rfl⟩)
    | (obtain ⟨bio, rfl⟩ := applyHeaderReservation_frame env h; exact ⟨_, _, rfl⟩)

/-- A call of `toi_swap_allocate_storage` that returns `0` after taking entries adds exactly
`pages_to_get` pages to `swap_pages_allocated`. -/
theorem toiSwapAllocateStorage_allocated {supply : List Nat} {request : Int} {s s' : SwapState}
    (hp : 1 ≤ pagesToGet env request s)
    (h : toiSwapAllocateStorage env supply request s = some (s', 0)) :
    s'.swapPagesAllocated = s.swapPagesAllocated + pagesToGet env request s ∧
      s'.headerPagesReserved = s.headerPagesReserved := by
  have hp' : pagesToGet env request s < 2 ^ 31 := toInt32_lt _
  simp only [toiSwapAllocateStorage, show ¬ pagesToGet env request s < 1 by omega, if_false,
    Option.bind_eq_bind, Option.bind_eq_some_iff, Option.pure_def, Option.some.injEq,
    Prod.mk.injEq] at h
  generalize hl : allocLoop env (setupDevinfo env s.devinfo) (pagesToGet env request s) supply
    ⟨fun _ => false, fun _ => 0, fun _ => 0, 0, s.swapextents⟩ = l at h
  generalize hl' : flushExtents env (setupDevinfo env s.devinfo)
    (List.range env.maxSwapfiles) l = l' at h
  obtain ⟨⟨s₁, r₁⟩, hphys, rfl, hr⟩ := h
  -- the count of entries is at most `pages_to_get`
  have hloop := hl ▸ allocLoop_bounded env hp' supply
    ⟨fun _ => false, fun _ => 0, fun _ => 0, 0, s.swapextents⟩ le_rfl
    (show (0 : Int) ≤ pagesToGet env request s by omega) (fun n ho => by simp at ho)
  have hle : l'.gotten ≤ pagesToGet env request s :=
    hl' ▸ flushExtents_le env hp' _ l hloop.1 hloop.2.1 hloop.2.2
  -- and the result `0` says it reached `pages_to_get`
  have hge : pagesToGet env request s ≤ l'.gotten := by
    by_contra hlt
    rw [if_pos (show l'.gotten < pagesToGet env request s by omega)] at hr
    simp [ENOSPC] at hr
  obtain ⟨bc, bio, hs₁⟩ := getMainPoolPhysParams_frame env hphys
  rw [hs₁]
  exact ⟨show s.swapPagesAllocated + l'.gotten = _ by omega, rfl⟩

end Count

/-! ### A run of consecutive entries -/

section Run

variable {env} {devinfo : Nat → ToiBdevInfo}

theorem swpType_of_lt {v : Nat} (h : v < 2 ^ (env.arch.longBits - maxSwapfilesShift)) :
    swpType env v = 0 := by
  rw [swpType, Nat.shiftRight_eq_div_pow, Nat.div_eq_of_lt h]

theorem swpOffset_of_lt {v : Nat} (h : v < 2 ^ (env.arch.longBits - maxSwapfilesShift)) :
    swpOffset env v = v := by
  rw [swpOffset, Nat.one_shiftLeft, Nat.and_two_pow_sub_one_eq_mod, Nat.mod_eq_of_lt h]

theorem allocLoop_extend {pagesToGet : Int} {n : Nat} :
    ∀ (k m : Nat) (l : AllocLoop), l.toAdd n = true → l.extentMax n = m →
      (∀ j, j < k → swpType env (m + 1 + j) = n) → counted devinfo n = true →
      l.gotten + k ≤ pagesToGet →
      allocLoop env devinfo pagesToGet (List.range' (m + 1) k) l =
        { l with
          extentMax := Function.update l.extentMax n (m + k)
          gotten := l.gotten + k }
  | 0, m, l, _, hmax, _, _, _ => by
    simp [allocLoop, ← hmax]
  | k + 1, m, l, hopen, hmax, htype, hc, hroom => by
    have hstep : allocStep env devinfo l (m + 1) = .inl { l with
        extentMax := Function.update l.extentMax n (m + 1)
        gotten := l.gotten + 1 } := by
      simp [allocStep, htype 0 (by omega), hopen, hmax, AllocLoop.count, hc]
    rw [List.range'_succ, allocLoop, if_neg (by omega), hstep]
    dsimp only
    rw [allocLoop_extend k (m + 1) _ (by simpa using hopen) (by simp)
      (fun j hj => by rw [show m + 1 + 1 + j = m + 1 + (j + 1) by omega]; exact htype _ (by omega))
      hc (by simp only; omega)]
    simp only [Function.update_idem, AllocLoop.mk.injEq, and_true, true_and]
    refine ⟨by rw [show m + 1 + k = m + (k + 1) by omega], by push_cast; omega⟩

theorem physLoop_extend {n : Nat} :
    ∀ (k m : Nat) (l : PhysLoop), l.extentMax = m → l.lastChain = n → counted devinfo n = true →
      m + k < 2 ^ env.arch.longBits →
      (∀ j, j < k → swpType env (m + 1 + j) = n ∧
        env.mapSwapPage n (swpOffset env (m + 1 + j)) = m + 1 + j) →
      physLoop env devinfo (List.range' (m + 1) k) l = ({ l with extentMax := m + k }, 0)
  | 0, m, l, hmax, _, _, _, _ => by
    simp [physLoop, ← hmax]
  | k + 1, m, l, hmax, hlast, hc, hfit, hrun => by
    obtain ⟨ht, hs⟩ := hrun 0 (by omega)
    -- the next sector is the one after the run, on the same device
    have hsector : toUnsigned env.arch.longBits (l.extentMax + 1) = m + 1 := by
      have hlt : ((m + 1 : Nat) : Int) < ((2 ^ env.arch.longBits : Nat) : Int) := by
        exact_mod_cast (show m + 1 < 2 ^ env.arch.longBits by omega)
      push_cast at hlt
      have := toUnsigned_of_lt (w := env.arch.longBits) (x := (m : Int) + 1) (by omega) hlt
      rw [hmax]
      omega
    rw [List.range'_succ, physLoop]
    simp only [Nat.add_zero] at ht hs
    simp only [ht, hs, hc, hsector, hlast, Bool.not_true, Bool.false_eq_true, if_false, and_self,
      if_true]
    rw [physLoop_extend k (m + 1) { l with extentMax := l.extentMax + 1, lastChain := n }
      (by simp [hmax]) rfl hc (by omega)
      (fun j hj => by rw [show m + 1 + 1 + j = m + 1 + (j + 1) by omega]; exact hrun _ (by omega))]
    have e : ((m + 1 : Nat) : Int) + (k : Int) = (m : Int) + ((k + 1 : Nat) : Int) := by
      push_cast
      omega
    rw [e]

end Run

/-! ### `raw_to_real` against `extra_pages` -/

/-- From a state with nothing allocated, a request of `1024` records on x86-64 that succeeds,
whatever entries `get_swap_page` hands out, leaves `toi_swap_storage_allocated` at `1023`. -/
theorem swap_storage_allocated_short {supply : List Nat} {s s' : SwapState}
    (harch : env.arch = Arch.x86_64) (hsize : s.swapextents.size = 0)
    (hnone : s.swapPagesAllocated = 0) (hH : 0 ≤ s.headerPagesReserved)
    (hH' : s.headerPagesReserved < 2 ^ 30)
    (h : toiSwapAllocateStorage env supply 1024 s = some (s', 0)) :
    toiSwapStorageAllocated env s' = 1023 := by
  have hextra : extraPages env.arch 1024 = 3 := by
    rw [harch]
    exact rawToReal_x86_64_short.1
  have hp : pagesToGet env 1024 s = 1027 + s.headerPagesReserved := by
    rw [pagesToGet, hextra, hsize, toInt32_of_fits (by omega) (by omega)]
    omega
  obtain ⟨h1, h2⟩ := toiSwapAllocateStorage_allocated env (by omega) h
  -- the pages counted are exactly those asked for: the records of the request and their overhead
  have hraw : s'.swapPagesAllocated - s'.headerPagesReserved = 1024 + 3 := by
    rw [h1, h2, hnone, hp]
    omega
  rw [toiSwapStorageAllocated, hraw, harch, rawToReal_x86_64_short.2,
    toInt32_of_fits (by omega) (by omega)]

/-- One swap device on x86-64, not a RAM disk, whose page `offset` is sector `offset`, with
memory for every extent. -/
def oneSwapDevice : SwapEnv :=
  ⟨Arch.x86_64, 1, fun _ => ⟨some 8, false⟩, fun _ offset => offset, true⟩

/-- Nothing allocated and no header reserved. -/
def freshSwapState : SwapState :=
  ⟨HibernateExtentChain.empty, fun _ => HibernateExtentChain.empty, fun _ => ⟨0, 0, 0, 0, 0⟩,
    0, 0, bootBioState⟩

theorem oneSwapDevice_allocate :
    ∃ s', toiSwapAllocateStorage oneSwapDevice (List.range' 1 1027) 1024 freshSwapState =
      some (s', 0) := by
  have hp : pagesToGet oneSwapDevice 1024 freshSwapState = 1027 := by decide +kernel
  have hw : oneSwapDevice.arch.longBits - maxSwapfilesShift = 59 := rfl
  have htype : ∀ v, v < 2 ^ 59 → swpType oneSwapDevice v = 0 :=
    fun v hv => swpType_of_lt (by rw [hw]; exact hv)
  have hc : counted (setupDevinfo oneSwapDevice freshSwapState.devinfo) 0 = true := by decide
  -- the first entry opens an extent of swap file `0`; the others extend it
  have hstep : allocStep oneSwapDevice (setupDevinfo oneSwapDevice freshSwapState.devinfo)
      ⟨fun _ => false, fun _ => 0, fun _ => 0, 0, freshSwapState.swapextents⟩ 1 =
      .inl ⟨Function.update (fun _ => false) 0 true, Function.update (fun _ => 0) 0 1,
        Function.update (fun _ => 0) 0 1, 1, freshSwapState.swapextents⟩ := by
    simp [allocStep, htype 1 (by omega), AllocLoop.count, hc]
  have hloop : allocLoop oneSwapDevice (setupDevinfo oneSwapDevice freshSwapState.devinfo) 1027
      (List.range' 1 1027) ⟨fun _ => false, fun _ => 0, fun _ => 0, 0, freshSwapState.swapextents⟩ =
      ⟨Function.update (fun _ => false) 0 true, Function.update (fun _ => 0) 0 1,
        Function.update (Function.update (fun _ => 0) 0 1) 0 (1 + 1026), 1 + 1026,
        freshSwapState.swapextents⟩ := by
    rw [List.range'_succ, allocLoop, if_neg (by decide), hstep]
    exact allocLoop_extend 1026 1 _ (by simp) (by simp) (fun j hj => htype _ (by omega)) hc
      (by simp)
  have hflush : flushExtents oneSwapDevice (setupDevinfo oneSwapDevice freshSwapState.devinfo)
      (List.range oneSwapDevice.maxSwapfiles)
      ⟨Function.update (fun _ => false) 0 true, Function.update (fun _ => 0) 0 1,
        Function.update (Function.update (fun _ => 0) 0 1) 0 (1 + 1026), 1 + 1026,
        freshSwapState.swapextents⟩ =
      ⟨Function.update (fun _ => false) 0 true, Function.update (fun _ => 0) 0 1,
        Function.update (Function.update (fun _ => 0) 0 1) 0 (1 + 1026), 1 + 1026,
        ⟨1027, 1, [⟨1, 1027⟩], some 0⟩⟩ := by
    rfl
  have hvalues : (⟨1027, 1, [⟨1, 1027⟩], some 0⟩ : HibernateExtentChain).values =
      List.range' 1 1027 := by
    simp [HibernateExtentChain.values]
  -- the entries are sectors `1, …, 1027` of device `0`: one run
  have hphys : physLoop oneSwapDevice (setupDevinfo oneSwapDevice freshSwapState.devinfo)
      (List.range' 1 1027) ⟨-1, -1, -1, freeBlockChains oneSwapDevice freshSwapState.blockChain⟩ =
      (⟨1, 1 + 1026, 0, freeBlockChains oneSwapDevice freshSwapState.blockChain⟩, 0) := by
    have hoff : ∀ v, v < 2 ^ 59 → oneSwapDevice.mapSwapPage 0 (swpOffset oneSwapDevice v) = v :=
      fun v hv => swpOffset_of_lt (by rw [hw]; exact hv)
    have hfirst : toUnsigned oneSwapDevice.arch.longBits (-1 + 1) = 0 := by decide
    rw [List.range'_succ, physLoop]
    simp only [htype 1 (by omega), hc, hoff 1 (by omega), hfirst, Bool.not_true,
      Bool.false_eq_true, if_false]
    rw [if_neg (by decide), if_neg (by decide), if_neg (by decide)]
    exact physLoop_extend 1026 1 _ (by decide) rfl hc (by decide)
      (fun j hj => ⟨htype _ (by omega), hoff _ (by omega)⟩)
  have hadd : addBlocksToExtentChain oneSwapDevice (freeBlockChains oneSwapDevice freshSwapState.blockChain)
      0 1 (1 + 1026) =
      (Function.update (freeBlockChains oneSwapDevice freshSwapState.blockChain) 0
        ⟨1027, 1, [⟨1, 1027⟩], some 0⟩, 0) := by
    rfl
  simp only [toiSwapAllocateStorage, hp, hloop, hflush, getMainPoolPhysParams, hvalues, hphys,
    hadd]
  -- the count reached `pages_to_get`, and the reservation of no header page saves the start
  simp [applyHeaderReservation, BlockIO.applyHeaderReservation, forwardPages, savePosn,
    toiExtentStateSave, freshSwapState, bootBioState, toiExtentStateGotoStart]

theorem swap_storage_allocated_short_one_device :
    oneSwapDevice.arch = Arch.x86_64 ∧ freshSwapState.swapextents.size = 0 ∧
      freshSwapState.swapPagesAllocated = 0 ∧ 0 ≤ freshSwapState.headerPagesReserved ∧
      freshSwapState.headerPagesReserved < 2 ^ 30 ∧
      ∃ s', toiSwapAllocateStorage oneSwapDevice (List.range' 1 1027) 1024 freshSwapState =
          some (s', 0) ∧ toiSwapStorageAllocated oneSwapDevice s' = 1023 := by
  obtain ⟨s', h⟩ := oneSwapDevice_allocate
  exact ⟨rfl, rfl, rfl, le_rfl, by decide, s', h,
    swap_storage_allocated_short oneSwapDevice rfl rfl rfl le_rfl (by decide) h⟩

/-! ### A failed extent in the flush loop -/

/-- Two swap devices on x86-64, neither a RAM disk, whose page `offset` is sector `offset`, with
no memory for a new extent. -/
def twoSwapDevicesNoMemory : SwapEnv :=
  ⟨Arch.x86_64, 2, fun _ => ⟨some 8, false⟩, fun _ offset => offset, false⟩

/-- Entry `1` of swap file `0` and entry `2 ^ 59 + 1` (offset `1` of swap file `1`) each open an
extent, and the loop after the allocation loop stops at the first that cannot be added: the
extent of swap file `0` is freed and dropped from the count, and that of swap file `1` is left
open, neither added to `swapextents` nor freed, while `gotten` still counts it. -/
theorem swap_allocation_loses_pending_run :
    (flushExtents twoSwapDevicesNoMemory (setupDevinfo twoSwapDevicesNoMemory freshSwapState.devinfo)
        (List.range twoSwapDevicesNoMemory.maxSwapfiles)
        (allocLoop twoSwapDevicesNoMemory (setupDevinfo twoSwapDevicesNoMemory freshSwapState.devinfo)
          2 [1, 2 ^ 59 + 1] ⟨fun _ => false, fun _ => 0, fun _ => 0, 0, freshSwapState.swapextents⟩)).toAdd
        1 = true ∧
      ∃ s', toiSwapAllocateStorage twoSwapDevicesNoMemory [1, 2 ^ 59 + 1] 1 freshSwapState =
        some (s', -ENOSPC) ∧ s'.swapextents.values = [] ∧ s'.swapPagesAllocated = 1 := by
  have hp : pagesToGet twoSwapDevicesNoMemory 1 freshSwapState = 2 := by decide +kernel
  -- each entry opens an extent of its own swap file
  have hstep1 : allocStep twoSwapDevicesNoMemory
      (setupDevinfo twoSwapDevicesNoMemory freshSwapState.devinfo)
      ⟨fun _ => false, fun _ => 0, fun _ => 0, 0, freshSwapState.swapextents⟩ 1 =
      .inl ⟨Function.update (fun _ => false) 0 true, Function.update (fun _ => 0) 0 1,
        Function.update (fun _ => 0) 0 1, 1, freshSwapState.swapextents⟩ := rfl
  have hstep2 : allocStep twoSwapDevicesNoMemory
      (setupDevinfo twoSwapDevicesNoMemory freshSwapState.devinfo)
      ⟨Function.update (fun _ => false) 0 true, Function.update (fun _ => 0) 0 1,
        Function.update (fun _ => 0) 0 1, 1, freshSwapState.swapextents⟩ (2 ^ 59 + 1) =
      .inl ⟨Function.update (Function.update (fun _ => false) 0 true) 1 true,
        Function.update (Function.update (fun _ => 0) 0 1) 1 (2 ^ 59 + 1),
        Function.update (Function.update (fun _ => 0) 0 1) 1 (2 ^ 59 + 1), 2,
        freshSwapState.swapextents⟩ := rfl
  have hloop : allocLoop twoSwapDevicesNoMemory
      (setupDevinfo twoSwapDevicesNoMemory freshSwapState.devinfo) 2
      [1, 2 ^ 59 + 1] ⟨fun _ => false, fun _ => 0, fun _ => 0, 0, freshSwapState.swapextents⟩ =
      ⟨Function.update (Function.update (fun _ => false) 0 true) 1 true,
        Function.update (Function.update (fun _ => 0) 0 1) 1 (2 ^ 59 + 1),
        Function.update (Function.update (fun _ => 0) 0 1) 1 (2 ^ 59 + 1), 2,
        freshSwapState.swapextents⟩ := by
    rw [allocLoop, if_neg (by decide), hstep1]
    dsimp only
    rw [allocLoop, if_neg (by decide), hstep2]
    rfl
  -- the extent of swap file `0` fails, and the loop ends before swap file `1`
  have hflush : flushExtents twoSwapDevicesNoMemory
      (setupDevinfo twoSwapDevicesNoMemory freshSwapState.devinfo)
      (List.range twoSwapDevicesNoMemory.maxSwapfiles)
      ⟨Function.update (Function.update (fun _ => false) 0 true) 1 true,
        Function.update (Function.update (fun _ => 0) 0 1) 1 (2 ^ 59 + 1),
        Function.update (Function.update (fun _ => 0) 0 1) 1 (2 ^ 59 + 1), 2,
        freshSwapState.swapextents⟩ =
      ⟨Function.update (Function.update (fun _ => false) 0 true) 1 true,
        Function.update (Function.update (fun _ => 0) 0 1) 1 (2 ^ 59 + 1),
        Function.update (Function.update (fun _ => 0) 0 1) 1 (2 ^ 59 + 1), 1,
        freshSwapState.swapextents⟩ := rfl
  refine ⟨by rw [hloop, hflush]; rfl, ?_⟩
  simp only [toiSwapAllocateStorage, hp, hloop, hflush]
  simp [getMainPoolPhysParams, physLoop, HibernateExtentChain.values, freshSwapState,
    HibernateExtentChain.empty, applyHeaderReservation, BlockIO.applyHeaderReservation,
    forwardPages, savePosn, toiExtentStateSave, bootBioState, toiExtentStateGotoStart, ENOSPC]

/-! ### Sectors past the range of `int` -/

/-- One swap device on x86-64 whose swap area starts at sector `2 ^ 32`: page `offset` is sector
`2 ^ 32 + offset`. -/
def highSectorDevice : SwapEnv :=
  ⟨Arch.x86_64, 1, fun _ => ⟨some 8, false⟩, fun _ offset => 2 ^ 32 + offset, true⟩

/-- `get_main_pool_phys_params` keeps sectors in `int`s: entries `1` and `2`, at sectors
`2 ^ 32 + 1` and `2 ^ 32 + 2`, become blocks `1` and `2` of the block chain. -/
theorem block_chain_sectors_truncated :
    highSectorDevice.mapSwapPage 0 (swpOffset highSectorDevice 1) = 2 ^ 32 + 1 ∧
      highSectorDevice.mapSwapPage 0 (swpOffset highSectorDevice 2) = 2 ^ 32 + 2 ∧
      ∃ s', toiSwapAllocateStorage highSectorDevice [1, 2] 1 freshSwapState = some (s', 0) ∧
        s'.swapextents.values = [1, 2] ∧ (s'.blockChain 0).values = [1, 2] := by
  refine ⟨by decide, by decide, ?_⟩
  have hp : pagesToGet highSectorDevice 1 freshSwapState = 2 := by decide +kernel
  have hloop : allocLoop highSectorDevice (setupDevinfo highSectorDevice freshSwapState.devinfo) 2
      [1, 2] ⟨fun _ => false, fun _ => 0, fun _ => 0, 0, freshSwapState.swapextents⟩ =
      ⟨Function.update (fun _ => false) 0 true, Function.update (fun _ => 0) 0 1,
        Function.update (Function.update (fun _ => 0) 0 1) 0 2, 2,
        freshSwapState.swapextents⟩ := rfl
  have hflush : flushExtents highSectorDevice (setupDevinfo highSectorDevice freshSwapState.devinfo)
      (List.range highSectorDevice.maxSwapfiles)
      ⟨Function.update (fun _ => false) 0 true, Function.update (fun _ => 0) 0 1,
        Function.update (Function.update (fun _ => 0) 0 1) 0 2, 2,
        freshSwapState.swapextents⟩ =
      ⟨Function.update (fun _ => false) 0 true, Function.update (fun _ => 0) 0 1,
        Function.update (Function.update (fun _ => 0) 0 1) 0 2, 2,
        ⟨2, 1, [⟨1, 2⟩], some 0⟩⟩ := rfl
  have hvalues : (⟨2, 1, [⟨1, 2⟩], some 0⟩ : HibernateExtentChain).values = [1, 2] := rfl
  -- both entries are of swap file `0`, at their own offset
  have hc : counted (setupDevinfo highSectorDevice freshSwapState.devinfo) 0 = true := by decide
  have ht1 : swpType highSectorDevice 1 = 0 := by decide
  have ht2 : swpType highSectorDevice 2 = 0 := by decide
  have ho1 : swpOffset highSectorDevice 1 = 1 := by decide
  have ho2 : swpOffset highSectorDevice 2 = 2 := by decide
  -- the sectors as the `int`s `extent_min` and `extent_max` hold them
  have hm1 : toInt32 ((highSectorDevice.mapSwapPage 0 1 : Nat) : Int) = 1 := by decide
  have hm2 : toInt32 ((highSectorDevice.mapSwapPage 0 2 : Nat) : Int) = 2 := by decide
  have hu1 : toUnsigned highSectorDevice.arch.longBits 1 = 1 := by decide
  have hu2 : toUnsigned highSectorDevice.arch.longBits 2 = 2 := by decide
  have hne2 : highSectorDevice.mapSwapPage 0 2 ≠ 2 := by decide
  have hok : highSectorDevice.allocOk = true := rfl
  have hadd1 : toiAddToExtentChain true (freeBlockChains highSectorDevice freshSwapState.blockChain 0)
      1 1 = (⟨1, 1, [⟨1, 1⟩], some 0⟩, 0) := by decide
  have hadd2 : toiAddToExtentChain true ⟨1, 1, [⟨1, 1⟩], some 0⟩ 2 2 =
      (⟨2, 1, [⟨1, 2⟩], some 0⟩, 0) := by decide
  simp only [toiSwapAllocateStorage, hp, hloop, hflush, getMainPoolPhysParams, hvalues]
  simp [physLoop, ht1, ht2, ho1, ho2, hc, hm1, hm2, hu1, hu2, hne2, addBlocksToExtentChain,
    hok, hadd1, hadd2]
  simp [applyHeaderReservation, BlockIO.applyHeaderReservation, forwardPages, savePosn,
    toiExtentStateSave, freshSwapState, bootBioState, toiExtentStateGotoStart, hvalues]

end TuxOnIceFastboot.Alloc.Swap
