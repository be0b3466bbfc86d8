import TuxOnIceFastboot.Base

/-!
# Finding the copy of a page (`copy_page_from_orig_page`)

While pageset 1 is read back, a page that cannot be loaded in place is read into its copy page,
found through the pbe lists `toi_get_pageset1_load_addresses` builds (`tuxonice_pagedir.c`):
`struct pbe`s, `PBES_PER_PAGE` to a page, in increasing order of `orig_address`, entry
`PBES_PER_PAGE - 1` of each full page linking to the next page. `copy_page_from_orig_page`
(`tuxonice_io.c`) starts from the head of the list or from the page of the last lookup, walks the
pages while the last entry of a page links on and lies below the page sought, and then searches
the page by halving the window `[min, max)`, a zero entry counting as past the end.

A list is the list of its pages here, in link order, and addresses are numbers: the lowmem list
compares virtual addresses and the highmem list `struct page` pointers, both in page order.

The search moves `min` to the probe (`min = index`), not past it. On a sorted page it finds
every entry (`binarySearch_found`). But once the window is one entry wide and that entry lies
below the page sought, a pass changes nothing; from a window with an entry below the page sought
at its bottom and no entry equal to it, the loop never ends (`binarySearch_loops`).
-/

namespace TuxOnIceFastboot.Restore

/-- `struct pbe`; `0` stands for `NULL`. -/
structure Pbe where
  address : Nat
  origAddress : Nat
  next : Nat
  deriving DecidableEq, Repr

/-- An entry cleared by `memset(.., 0, PAGE_SIZE)`. -/
def Pbe.zero : Pbe := ⟨0, 0, 0⟩

/-- `PBES_PER_PAGE = PAGE_SIZE / sizeof(struct pbe)`, a `struct pbe` being three pointers. -/
def pbesPerPage (a : Arch) : Nat := a.pageSize / (3 * a.sizeofLong)

/-- Entry `i` of a page of pbes. -/
def entry (page : List Pbe) (i : Nat) : Pbe := page.getD i Pbe.zero

/-- The locals of the binary search: the window `[min, max)` and the probe `index`. -/
structure Window where
  min : Nat
  max : Nat
  index : Nat
  deriving DecidableEq, Repr

/-- `min = 0; max = PBES_PER_PAGE; index = PBES_PER_PAGE / 2;` -/
def startWindow (P : Nat) : Window := ⟨0, P, P / 2⟩

/-- One pass of `while (max - min)`: the entry it stops on, or the window the loop goes on
with. -/
def searchStep (page : List Pbe) (compare : Nat) (w : Window) : Nat ⊕ Window :=
  let e := entry page w.index
  if e.origAddress = 0 ∨ compare < e.origAddress then .inr ⟨w.min, w.index, (w.index + w.min) / 2⟩
  else if e.origAddress = compare then .inl w.index
  else .inr ⟨w.index, w.max, (w.max + w.index) / 2⟩

/-- The search loop, `fuel` passes allowed: `some (some i)` when it stops on entry `i`,
`some none` when the window closes, `none` when the passes run out. -/
def binarySearch (page : List Pbe) (compare : Nat) : Nat → Window → Option (Option Nat)
  | 0, _ => none
  | fuel + 1, w =>
    if w.max = w.min then some none
    else
      match searchStep page compare w with
      | .inl i => some (some i)
      | .inr w' => binarySearch page compare fuel w'

/-- `while (this[PBES_PER_PAGE - 1].next && this[PBES_PER_PAGE - 1].orig_address < compare)`
over `pages`, the first of them numbered `j`: the page the search is made in, `none` where the
walk leaves the list. -/
def locatePage (P compare : Nat) : List (List Pbe) → Nat → Option Nat
  | [], _ => none
  | page :: rest, j =>
    if (entry page (P - 1)).next ≠ 0 ∧ (entry page (P - 1)).origAddress < compare then
      locatePage P compare rest (j + 1)
    else some j

/-- The per-cpu `last_sought` and `last_low_page` (`last_high_page` for the highmem list), the
page by its place in the list. -/
structure LookupCache where
  lastSought : Nat
  lastPage : Option Nat
  deriving DecidableEq, Repr

/-- How a call of `copy_page_from_orig_page` ends. -/
inductive LookupResult
  /-- The copy page of the pbe found. -/
  | copy (address : Nat)
  /-- `abort_hibernate(TOI_FAILED_IO, ...)`, returning `NULL`. -/
  | abort
  /-- A read through a link that leads out of the list. -/
  | badRead
  /-- The search loop has not ended after the passes allowed. -/
  | outOfFuel
  deriving DecidableEq, Repr

/-- `copy_page_from_orig_page(orig_page)`, `compare` being the address of `orig_page` as the list
holds it, with `fuel` passes of the search allowed: how the call ends, and the cache after it. -/
def copyPageFromOrigPage (P fuel : Nat) (pages : List (List Pbe)) (cache : LookupCache)
    (compare : Nat) : LookupResult × LookupCache :=
  -- the page of the last lookup, if it sought a page below this one
  let start := match cache.lastPage with
    | some j => if cache.lastSought ≠ 0 ∧ cache.lastSought < compare then j else 0
    | none => 0
  let cache := { cache with lastSought := compare }
  match locatePage P compare (pages.drop start) start with
  | none => (.badRead, cache)
  | some j =>
    let page := pages.getD j []
    match binarySearch page compare fuel (startWindow P) with
    | none => (.outOfFuel, cache)
    | some none => (.abort, cache)
    | some (some i) => (.copy (entry page i).address, { cache with lastPage := some j })

/-! ### The search on a sorted page -/

section Search

variable {page : List Pbe} {compare : Nat}

/-- The first `n` entries of a page hold strictly increasing original addresses, none `NULL`,
and the entries after them are cleared. -/
def SortedPage (page : List Pbe) (n : Nat) : Prop :=
  (∀ i j, i < j → j < n → (entry page i).origAddress < (entry page j).origAddress) ∧
  (∀ i, i < n → (entry page i).origAddress ≠ 0) ∧
  (∀ i, n ≤ i → (entry page i).origAddress = 0)

theorem searchStep_close {w : Window}
    (h : (entry page w.index).origAddress = 0 ∨ compare < (entry page w.index).origAddress) :
    searchStep page compare w = .inr ⟨w.min, w.index, (w.index + w.min) / 2⟩ := by
  simp [searchStep, h]

theorem searchStep_hit {w : Window} (h0 : (entry page w.index).origAddress ≠ 0)
    (h : (entry page w.index).origAddress = compare) : searchStep page compare w = .inl w.index := by
  have hc : compare ≠ 0 := h ▸ h0
  simp [searchStep, hc, h]

theorem searchStep_raise {w : Window} (h0 : (entry page w.index).origAddress ≠ 0)
    (h : (entry page w.index).origAddress < compare) :
    searchStep page compare w = .inr ⟨w.index, w.max, (w.max + w.index) / 2⟩ := by
  have hlt : ¬ compare < (entry page w.index).origAddress := by omega
  have hne : (entry page w.index).origAddress ≠ compare := by omega
  simp [searchStep, h0, hlt, hne]

theorem binarySearch_succ {fuel : Nat} {w : Window} (h : w.max ≠ w.min) :
    binarySearch page compare (fuel + 1) w =
      match searchStep page compare w with
      | .inl i => some (some i)
      | .inr w' => binarySearch page compare fuel w' := by
  simp [binarySearch, h]

/-- On a sorted page, the search finds the entry holding the page sought within `max - min`
passes of a window that contains it. -/
theorem binarySearch_found {n k : Nat} (hs : SortedPage page n) (hk : k < n)
    (hkey : (entry page k).origAddress = compare) :
    ∀ (fuel : Nat) (w : Window), w.min ≤ k → k < w.max → w.index = (w.min + w.max) / 2 →
      w.max - w.min ≤ fuel → binarySearch page compare fuel w = some (some k)
  | 0, w, hlo, hhi, _, hfuel => by omega
  | fuel + 1, w, hlo, hhi, hidx, hfuel => by
    obtain ⟨hmono, hnz, hzero⟩ := hs
    rw [binarySearch_succ (by omega)]
    -- the probe is below, at, or above the entry sought, and the entry there says which
    rcases Nat.lt_trichotomy w.index k with hbelow | hat | habove
    · have h0 := hnz w.index (by omega)
      have hlt : (entry page w.index).origAddress < compare := hkey ▸ hmono _ _ hbelow hk
      have hwide : w.min < w.index := by
        by_contra hle
        omega
      rw [searchStep_raise h0 hlt]
      exact binarySearch_found ⟨hmono, hnz, hzero⟩ hk hkey fuel _ (by simp; omega)
        (by simp; omega) (by simp; omega) (by simp; omega)
    · subst hat
      rw [searchStep_hit (hnz _ hk) hkey]
    · have hclose : (entry page w.index).origAddress = 0 ∨
          compare < (entry page w.index).origAddress := by
        by_cases hin : w.index < n
        · exact Or.inr (hkey ▸ hmono _ _ habove hin)
        · exact Or.inl (hzero _ (by omega))
      rw [searchStep_close hclose]
      exact binarySearch_found ⟨hmono, hnz, hzero⟩ hk hkey fuel _ (by simp; omega)
        (by simp; omega) (by simp; omega) (by simp; omega)

/-- A window the search cannot leave: at its bottom an entry below the page sought, and no entry
in it equal to the page sought. -/
def Stuck (page : List Pbe) (compare : Nat) (w : Window) : Prop :=
  w.min < w.max ∧ w.index = (w.min + w.max) / 2 ∧
    (entry page w.min).origAddress ≠ 0 ∧ (entry page w.min).origAddress < compare ∧
    ∀ i, w.min ≤ i → i < w.max → (entry page i).origAddress ≠ compare

/-- One pass keeps a stuck window stuck: it lowers `max` to the probe, which lies above `min`
since the entry at `min` is below the page sought, or raises `min` to the probe. -/
theorem Stuck.step {w : Window} (h : Stuck page compare w) :
    ∃ w', searchStep page compare w = .inr w' ∧ Stuck page compare w' := by
  obtain ⟨hlt, hidx, h0, hbelow, habs⟩ := h
  by_cases hclose : (entry page w.index).origAddress = 0 ∨
      compare < (entry page w.index).origAddress
  · -- the probe is not `min`, whose entry is below the page sought
    have hne : w.index ≠ w.min := by
      intro he
      rw [he] at hclose
      omega
    refine ⟨_, searchStep_close hclose, by simp; omega, by simp; omega, h0, hbelow, ?_⟩
    intro i hi hi'
    exact habs i hi (by simp at hi'; omega)
  · have hnz : (entry page w.index).origAddress ≠ 0 := by omega
    have hne : (entry page w.index).origAddress ≠ compare := habs _ (by omega) (by omega)
    have hraise : (entry page w.index).origAddress < compare := by omega
    refine ⟨_, searchStep_raise hnz hraise, by simp; omega, by simp; omega, hnz, hraise, ?_⟩
    intro i hi hi'
    exact habs i (by simp at hi; omega) hi'

/-- From a stuck window the search loop never ends. -/
theorem binarySearch_loops : ∀ (fuel : Nat) {w : Window}, Stuck page compare w →
    binarySearch page compare fuel w = none
  | 0, _, _ => rfl
  | fuel + 1, w, h => by
    obtain ⟨w', hstep, hw'⟩ := h.step
    rw [binarySearch_succ (by have := h.1; omega), hstep]
    exact binarySearch_loops fuel hw'

end Search

/-! ### Lookups that do not end -/

/-- A page holding two pbes, for the pages at `10` and `20`, the rest of it cleared. -/
def twoPbePage : List Pbe :=
  [⟨100, 10, 1⟩, ⟨101, 20, 0⟩] ++ List.replicate (pbesPerPage Arch.x86_64 - 2) Pbe.zero

/-- The same two pbes in the first lowmem pbe page, which `toi_get_pageset1_load_addresses` does
not clear: an entry it held before, for the page at `5`, is still in the middle of it. -/
def stalePbePage : List Pbe :=
  [⟨100, 10, 1⟩, ⟨101, 20, 0⟩] ++ List.replicate 83 Pbe.zero ++ [⟨7, 5, 3⟩] ++
    List.replicate (pbesPerPage Arch.x86_64 - 86) Pbe.zero

/-- On x86-64, a lookup of the page at `15`, which has no pbe, in a list of one page with
`twoPbePage`, and a lookup of the page at `20`, which has one, in a list whose page is
`stalePbePage`: neither search ends, for any number of passes. -/
theorem copy_page_from_orig_page_loops :
    (∀ fuel, (copyPageFromOrigPage (pbesPerPage Arch.x86_64) fuel [twoPbePage] ⟨0, none⟩ 15).1 =
      .outOfFuel) ∧
    ∀ fuel, (copyPageFromOrigPage (pbesPerPage Arch.x86_64) fuel [stalePbePage] ⟨0, none⟩ 20).1 =
      .outOfFuel := by
  have hP : pbesPerPage Arch.x86_64 = 170 := by decide
  -- both pages end in a cleared entry: the search is made in the first page
  have hloc₁ : locatePage 170 15 [twoPbePage] 0 = some 0 := by decide
  have hloc₂ : locatePage 170 20 [stalePbePage] 0 = some 0 := by decide
  refine ⟨fun fuel => ?_, fun fuel => ?_⟩
  · -- the whole page is a stuck window: `10` is below `15`, and no entry holds `15`
    have hstuck : Stuck twoPbePage 15 (startWindow 170) := by
      refine ⟨by decide, by decide, by decide, by decide, ?_⟩
      intro i _ hi
      have : ∀ i < 170, (entry twoPbePage i).origAddress ≠ 15 := by decide +kernel
      exact this i hi
    simp only [copyPageFromOrigPage, hP, List.drop_zero, hloc₁, List.getD_cons_zero,
      binarySearch_loops fuel hstuck]
  · -- the first probe meets the stale entry `5` and raises `min` past the pbe for `20`
    have hstuck : Stuck stalePbePage 20 ⟨85, 170, 127⟩ := by
      refine ⟨by decide, by decide, by decide, by decide, ?_⟩
      intro i hi hi'
      have : ∀ i < 170, 85 ≤ i → (entry stalePbePage i).origAddress ≠ 20 := by decide +kernel
      exact this i hi' hi
    have hsearch : binarySearch stalePbePage 20 fuel (startWindow 170) = none := by
      cases fuel with
      | zero => rfl
      | succ fuel =>
        have hstep : searchStep stalePbePage 20 (startWindow 170) = .inr ⟨85, 170, 127⟩ := by
          decide
        rw [binarySearch_succ (by decide), hstep]
        exact binarySearch_loops fuel hstuck
    simp only [copyPageFromOrigPage, hP, List.drop_zero, hloc₂, List.getD_cons_zero, hsearch]

end TuxOnIceFastboot.Restore
