import TuxOnIceFastboot.Restore.LoadAddresses
import TuxOnIceFastboot.Lib.Indexed
import TuxOnIceFastboot.Lib.Run

/-!
# The highmem pbe list in memory (`copyback_high`, `free_pbe_list`)

`toi_get_pageset1_load_addresses` (`tuxonice_pagedir.c`) writes the pbes of
`restore_highmem_pblist` into highmem pbe pages, `PBES_PER_PAGE` to a page, each page mapped by
`kmap` while it is filled. A pbe is linked from the one before it by its address under that
`kmap`, except the first pbe of a page, which is linked by the page's `struct page` pointer; the
head of the list is the first page's. Two readers walk the list later, after the pages were
unmapped. `copyback_high` (`tuxonice_builtin.c`) maps each page again and goes from entry to entry
by index, reading `next` only to see whether the list ends and, at the last entry of a page, to
find the next page. `free_pbe_list` (`tuxonice_atomic_copy.c`) maps each page again and follows
`next` from entry to entry.

The memory is the entries of the pbe pages, by frame and slot, and the head of the list; a
`struct page` pointer is the frame number, and `read` says what a `struct pbe *` reads at a
virtual address when `free_pbe_list` runs. The `memset` of a new pbe page is left out: no walk
here reads an entry before it is written. The builder keeps `HighLayout`: pbe `i` is entry
`i % PBES_PER_PAGE` of the `i / PBES_PER_PAGE`-th pbe page, linked to pbe `i + 1` as above
(`HighLayout.step`, `buildHighPblist_layout`). So `copyback_high` copies every pbe once, in the order they were made
(`copyback_high_copies_all`). `free_pbe_list` frees every copy and every pbe page once, page by
page, and leaves the head `NULL`, as long as every page is mapped where it was built
(`free_pbe_list_frees_all`). It runs when the atomic restore fails, after the image was read
through many other mappings: it reads the second entry of the first page at the address the page
had while it was built, and once `kmap` maps the page elsewhere it frees whatever lies at that
address (`free_pbe_list_reads_stale_next`).
-/

namespace TuxOnIceFastboot.Restore

open TuxOnIceFastboot.Snapshot TuxOnIceFastboot.Lib

/-- `kmap`: the virtual address each page is mapped at, never `NULL`. -/
structure Kmap where
  addr : Nat → Nat
  addr_pos : ∀ page, 0 < addr page

/-- The pbe pages, entry `slot` of the page with frame `page`, and the head of the list. -/
structure PbeMemory where
  entries : Nat → Nat → Pbe
  head : Nat

/-- A `next` field `last_high_pbe_ptr` points at: the head of the list, or the `next` of entry
`slot` of page `page`. -/
inductive NextField
  | head
  | entry (page slot : Nat)
  deriving DecidableEq, Repr

namespace PbeMemory

/-- Entry `slot` of page `page` written whole. -/
def write (m : PbeMemory) (page slot : Nat) (e : Pbe) : PbeMemory :=
  { m with entries := Function.update m.entries page (Function.update (m.entries page) slot e) }

/-- `*field = value`. -/
def store (m : PbeMemory) : NextField → Nat → PbeMemory
  | .head, v => { m with head := v }
  | .entry page slot, v => m.write page slot { m.entries page slot with next := v }

@[simp] theorem write_head (m : PbeMemory) (page slot : Nat) (e : Pbe) :
    (m.write page slot e).head = m.head := rfl

@[simp] theorem write_entries_self (m : PbeMemory) (page slot : Nat) (e : Pbe) :
    (m.write page slot e).entries page slot = e := by
  simp [write]

theorem write_entries_of_ne (m : PbeMemory) {page slot q k : Nat} (e : Pbe)
    (h : (q, k) ≠ (page, slot)) : (m.write page slot e).entries q k = m.entries q k := by
  unfold write
  by_cases hq : q = page
  · subst hq
    have hk : k ≠ slot := fun hk => h (by rw [hk])
    simp [hk]
  · simp [hq]

@[simp] theorem store_head_head (m : PbeMemory) (v : Nat) : (m.store .head v).head = v := rfl

@[simp] theorem store_head_entries (m : PbeMemory) (v : Nat) :
    (m.store .head v).entries = m.entries := rfl

@[simp] theorem store_entry_head (m : PbeMemory) (page slot v : Nat) :
    (m.store (.entry page slot) v).head = m.head := rfl

@[simp] theorem store_entry_self (m : PbeMemory) (page slot v : Nat) :
    (m.store (.entry page slot) v).entries page slot = { m.entries page slot with next := v } :=
  write_entries_self _ _ _ _

theorem store_entry_of_ne (m : PbeMemory) {page slot q k : Nat} (v : Nat)
    (h : (q, k) ≠ (page, slot)) : (m.store (.entry page slot) v).entries q k = m.entries q k :=
  write_entries_of_ne _ _ h

end PbeMemory

/-! ### The builder -/

/-- The locals of the highmem branch of the pbe loop: `high_pbe_page` and the slot of
`this_high_pbe` in it, `last_high_pbe_page`, `last_high_pbe_ptr`, what the allocator still hands
out, and the memory they write. -/
structure HighBuild where
  mem : PbeMemory
  page : Nat
  slot : Nat
  lastPage : Option Nat
  lastPtr : NextField
  supply : PageSupply

/-- The highmem locals when the loop starts: the first highmem pbe page, its first slot, nothing
linked yet. -/
def HighBuild.start (mem : PbeMemory) (page : Nat) (supply : PageSupply) : HighBuild :=
  ⟨mem, page, 0, none, .head, supply⟩

/-- The pbe of `orig_page` into `page` written at `this_high_pbe` and linked in: a pbe that opens
a pbe page is linked by the page's `struct page` pointer, any other by its address under the
`kmap` of its page. -/
def linkHighPbe (a : Arch) (kmap : Kmap) (b : HighBuild) (orig page : Nat) : HighBuild :=
  let mem := b.mem.write b.page b.slot ⟨page, orig, 0⟩
  let (mem, lastPage) :=
    if b.lastPage ≠ some b.page then
      (mem.store b.lastPtr b.page, if b.lastPage = none then some b.page else b.lastPage)
    else (mem.store b.lastPtr (kmap.addr b.page + b.slot * sizeofPbe a), b.lastPage)
  -- `kunmap(last_high_pbe_page)` leaves the build-time addresses in the links
  let lastPage := if lastPage ≠ some b.page then some b.page else lastPage
  { b with mem := mem, lastPage := lastPage, lastPtr := .entry b.page b.slot }

/-- The highmem branch of the pbe loop once the original page of `pbe` is found: the pbe written
and linked, and `get_next_pbe(&high_pbe_page, this_high_pbe, 1)`; `none` where that fails. -/
def highPbeStep (a : Arch) (ps1 : MemoryBitmap) (kmap : Kmap) (b : HighBuild) (pbe : LoadPbe) :
    Option HighBuild :=
  let b := linkHighPbe a kmap b pbe.origAddress pbe.address
  match getNextPbe a ps1 b.page b.slot b.supply with
  | (some (page, slot), supply) => some { b with page := page, slot := slot, supply := supply }
  | (none, _) => none

/-- The highmem pbes of the loop, in the order they are made. -/
def buildHighPblist (a : Arch) (ps1 : MemoryBitmap) (kmap : Kmap) (b : HighBuild)
    (pbes : List LoadPbe) : Option HighBuild :=
  pbes.foldlM (highPbeStep a ps1 kmap) b

/-! ### The readers -/

/-- `copyback_high` from entry `slot` of pbe page `page` (`pbe_index` is `slot + 1`): the copies
it makes, `(orig_address, address)` in order, reading the page by index where `kmap_atomic` maps
it; `none` when `fuel` runs out. -/
def copybackHighFrom (P : Nat) (mem : PbeMemory) : Nat → Nat → Nat → Option (List (Nat × Nat))
  | 0, _, _ => none
  | fuel + 1, page, slot =>
    let e := mem.entries page slot
    if e.next = 0 then some [(e.origAddress, e.address)]
    else if slot + 1 < P then
      (copybackHighFrom P mem fuel page (slot + 1)).map ((e.origAddress, e.address) :: ·)
    -- `if (!pbe_page) return;` cannot fire: `next` was just found non-zero
    else (copybackHighFrom P mem fuel e.next 0).map ((e.origAddress, e.address) :: ·)

/-- `copyback_high`. -/
def copybackHigh (P fuel : Nat) (mem : PbeMemory) : Option (List (Nat × Nat)) :=
  if mem.head = 0 then some [] else copybackHighFrom P mem fuel mem.head 0

/-- The `for` loop of `free_pbe_list` over one pbe page: at most `n` entries from `free_pbe`,
each read at its address; the pages freed, and `free_pbe` after the loop. -/
def freePbeEntries (read : Nat → Pbe) : Nat → Nat → List Nat × Nat
  | 0, freePbe => ([], freePbe)
  | n + 1, freePbe =>
    if freePbe = 0 then ([], 0)
    else
      let e := read freePbe
      let rest := freePbeEntries read n e.next
      (e.address :: rest.1, rest.2)

/-- `free_pbe_list(list, highmem)`: the pages freed, in order, and `*list` when the loop stops,
`0` once it ran to the end, or when `fuel` runs out. A highmem pbe page is reached through `kmap`,
a lowmem one through `virt_to_page`. -/
def freePbeList (P : Nat) (highmem : Bool) (kmap : Kmap) (virtToPage : Nat → Nat)
    (read : Nat → Pbe) : Nat → Nat → List Nat × Nat
  | 0, list => ([], list)
  | fuel + 1, list =>
    if list = 0 then ([], 0)
    else
      let page := if highmem then list else virtToPage list
      let entries := freePbeEntries read P (if highmem then kmap.addr list else list)
      let rest := freePbeList P highmem kmap virtToPage read fuel entries.2
      (entries.1 ++ page :: rest.1, rest.2)

/-! ### Where the pbes lie -/

/-- The pbe page that holds pbe `i`, `pages` being the pbe pages in the order they are taken. -/
def pbePage (a : Arch) (pages : List Nat) (i : Nat) : Nat := pages.getD (i / pbesPerPage a) 0

/-- The `next` of pbe `i` of `n`: `NULL` for the last, the next pbe page for the last of a page,
else the address of pbe `i + 1` under the `kmap` of its page while the page was filled. -/
def nextLink (a : Arch) (kmap : Kmap) (pages : List Nat) (n i : Nat) : Nat :=
  if i + 1 = n then 0
  else if (i + 1) % pbesPerPage a = 0 then pbePage a pages (i + 1)
  else kmap.addr (pbePage a pages i) + (i + 1) % pbesPerPage a * sizeofPbe a

/-- How the pbes `l` made so far lie in the pbe pages `pages`, taken from the allocator in
order, and where the builder's pointers stand. -/
structure HighLayout (a : Arch) (kmap : Kmap) (pages : List Nat) (l : List LoadPbe)
    (b : HighBuild) : Prop where
  perPage_pos : 0 < pbesPerPage a
  nodup : (pages ++ b.supply.alloc).Nodup
  pos : ∀ q ∈ pages ++ b.supply.alloc, 0 < q
  length_pages : pages.length = l.length / pbesPerPage a + 1
  page_eq : b.page = pbePage a pages l.length
  slot_eq : b.slot = l.length % pbesPerPage a
  entries_eq : ∀ i (hi : i < l.length), b.mem.entries (pbePage a pages i) (i % pbesPerPage a) =
    ⟨l[i].address, l[i].origAddress, nextLink a kmap pages l.length i⟩
  head_eq : l ≠ [] → b.mem.head = pbePage a pages 0
  lastPage_eq : b.lastPage = if l = [] then none else some (pbePage a pages (l.length - 1))
  lastPtr_eq : b.lastPtr = if l = [] then .head else
    .entry (pbePage a pages (l.length - 1)) ((l.length - 1) % pbesPerPage a)

section Layout

variable {a : Arch} {kmap : Kmap} {pages : List Nat}

theorem pbePage_append {qs : List Nat} {i : Nat} (h : i / pbesPerPage a < pages.length) :
    pbePage a (pages ++ qs) i = pbePage a pages i := by
  unfold pbePage
  rw [List.getD_append _ _ _ _ h]

@[simp] theorem pbePage_zero_cons {page : Nat} {qs : List Nat} : pbePage a (page :: qs) 0 = page := by
  simp [pbePage]

theorem pbePage_mem {i : Nat} (h : i / pbesPerPage a < pages.length) :
    pbePage a pages i ∈ pages := by
  unfold pbePage
  rw [List.getD_eq_getElem _ _ h]
  exact List.getElem_mem h

theorem pbePage_slot_ne (hnd : pages.Nodup) {i j : Nat} (hij : i ≠ j)
    (hi : i / pbesPerPage a < pages.length) (hj : j / pbesPerPage a < pages.length) :
    (pbePage a pages i, i % pbesPerPage a) ≠ (pbePage a pages j, j % pbesPerPage a) := by
  intro h
  obtain ⟨hpage, hslot⟩ := Prod.mk.inj h
  unfold pbePage at hpage
  rw [List.getD_eq_getElem _ _ hi, List.getD_eq_getElem _ _ hj] at hpage
  have hdiv : i / pbesPerPage a = j / pbesPerPage a := (List.getElem_inj hnd).mp hpage
  apply hij
  rw [← Nat.div_add_mod i (pbesPerPage a), ← Nat.div_add_mod j (pbesPerPage a), hdiv, hslot]

theorem pbePage_ne (hnd : pages.Nodup) {i j : Nat} (hij : i / pbesPerPage a ≠ j / pbesPerPage a)
    (hi : i / pbesPerPage a < pages.length) (hj : j / pbesPerPage a < pages.length) :
    pbePage a pages i ≠ pbePage a pages j := by
  unfold pbePage
  rw [List.getD_eq_getElem _ _ hi, List.getD_eq_getElem _ _ hj]
  exact fun h => hij ((List.getElem_inj hnd).mp h)

theorem nextLink_append {qs : List Nat} {n i : Nat}
    (h : i + 1 ≠ n → (i + 1) / pbesPerPage a < pages.length) :
    nextLink a kmap (pages ++ qs) n i = nextLink a kmap pages n i := by
  unfold nextLink
  by_cases hlast : i + 1 = n
  · simp [hlast]
  · have h1 := h hlast
    have h0 : i / pbesPerPage a < pages.length :=
      lt_of_le_of_lt (Nat.div_le_div_right (Nat.le_succ i)) h1
    simp only [hlast, if_false, pbePage_append h1, pbePage_append h0]

theorem nextLink_succ {n i : Nat} (h : i + 1 < n) :
    nextLink a kmap pages (n + 1) i = nextLink a kmap pages n i := by
  unfold nextLink
  rw [if_neg (show i + 1 ≠ n + 1 by omega), if_neg (show i + 1 ≠ n by omega)]

end Layout

/-! ### What the builder does -/

section Builder

variable {a : Arch} {kmap : Kmap} {ps1 : MemoryBitmap} {b : HighBuild} {orig page : Nat}

@[simp] theorem linkHighPbe_page : (linkHighPbe a kmap b orig page).page = b.page := by
  unfold linkHighPbe
  split_ifs <;> rfl

@[simp] theorem linkHighPbe_slot : (linkHighPbe a kmap b orig page).slot = b.slot := by
  unfold linkHighPbe
  split_ifs <;> rfl

@[simp] theorem linkHighPbe_supply : (linkHighPbe a kmap b orig page).supply = b.supply := by
  unfold linkHighPbe
  split_ifs <;> rfl

@[simp] theorem linkHighPbe_lastPtr :
    (linkHighPbe a kmap b orig page).lastPtr = .entry b.page b.slot := by
  unfold linkHighPbe
  split_ifs <;> rfl

/-- Whatever `last_high_pbe_page` was, it is the page of the pbe just linked. -/
@[simp] theorem linkHighPbe_lastPage : (linkHighPbe a kmap b orig page).lastPage = some b.page := by
  unfold linkHighPbe
  split_ifs <;> simp_all

theorem linkHighPbe_mem : (linkHighPbe a kmap b orig page).mem =
    (b.mem.write b.page b.slot ⟨page, orig, 0⟩).store b.lastPtr
      (if b.lastPage ≠ some b.page then b.page else kmap.addr b.page + b.slot * sizeofPbe a) := by
  unfold linkHighPbe
  split_ifs <;> rfl

theorem getNonconflictingPage_eq_some : ∀ {alloc conflicting : List Nat} {q : Nat} {s : PageSupply},
    getNonconflictingPage ps1 alloc conflicting = (some q, s) → ∃ pre, alloc = pre ++ q :: s.alloc
  | [], _, _, _, h => by simp [getNonconflictingPage] at h
  | p :: ps, c, q, s, h => by
    unfold getNonconflictingPage at h
    split_ifs at h with hp
    · obtain ⟨pre, hpre⟩ := getNonconflictingPage_eq_some h
      exact ⟨p :: pre, by rw [hpre, List.cons_append]⟩
    · simp only [Prod.mk.injEq, Option.some.injEq] at h
      obtain ⟨rfl, rfl⟩ := h
      exact ⟨[], rfl⟩

theorem fits_of_succ_lt {slot : Nat} (h : slot + 1 < pbesPerPage a) :
    slot * sizeofPbe a % a.pageSize + 2 * sizeofPbe a ≤ a.pageSize := by
  unfold pbesPerPage at h
  unfold sizeofPbe
  have hsz : 0 < 3 * a.sizeofLong := Nat.pos_of_ne_zero fun h0 => by
    rw [h0, Nat.div_zero] at h
    omega
  have hend : (slot + 2) * (3 * a.sizeofLong) ≤ a.pageSize :=
    (Nat.le_div_iff_mul_le hsz).mp (by omega)
  rw [Nat.add_mul] at hend
  rw [Nat.mod_eq_of_lt (by omega)]
  omega

theorem getNextPbe_cases {page slot : Nat} {s s' : PageSupply} {next : Nat × Nat}
    (hslot : slot < pbesPerPage a) (h : getNextPbe a ps1 page slot s = (some next, s')) :
    slot + 1 < pbesPerPage a ∧ next = (page, slot + 1) ∧ s' = s ∨
      slot + 1 = pbesPerPage a ∧ next.2 = 0 ∧ ∃ pre, s.alloc = pre ++ next.1 :: s'.alloc := by
  unfold getNextPbe at h
  split_ifs at h with hfit
  · cases hg : getNonconflictingPage ps1 s.alloc s.conflicting with
    | mk page? s'' =>
      rw [hg] at h
      cases page? with
      | none => cases h
      | some q =>
        simp only [Prod.mk.injEq, Option.some.injEq] at h
        obtain ⟨rfl, rfl⟩ := h
        have hlast : ¬slot + 1 < pbesPerPage a := fun hlt => by
          have := fits_of_succ_lt hlt
          omega
        exact .inr ⟨by omega, rfl, getNonconflictingPage_eq_some hg⟩
  · simp only [Prod.mk.injEq, Option.some.injEq] at h
    obtain ⟨rfl, rfl⟩ := h
    exact .inl ⟨succ_lt_pbesPerPage hslot (by omega), rfl, rfl⟩

end Builder

section Run

variable {a : Arch} {kmap : Kmap} {ps1 : MemoryBitmap} {pages : List Nat} {l : List LoadPbe}
  {b : HighBuild}

theorem HighLayout.div_lt (inv : HighLayout a kmap pages l b) {j : Nat} (hj : j ≤ l.length) :
    j / pbesPerPage a < pages.length := by
  rw [inv.length_pages]
  exact Nat.lt_succ_of_le (Nat.div_le_div_right hj)

theorem HighLayout.pages_nodup (inv : HighLayout a kmap pages l b) : pages.Nodup :=
  (List.nodup_append.mp inv.nodup).1

theorem HighLayout.link_value (inv : HighLayout a kmap pages l b) {i : Nat}
    (hlast : i + 1 = l.length) :
    (if b.lastPage ≠ some b.page then b.page else kmap.addr b.page + b.slot * sizeofPbe a) =
      nextLink a kmap pages (l.length + 1) i := by
  have hl : l ≠ [] := List.ne_nil_of_length_pos (by omega)
  rw [inv.lastPage_eq, if_neg hl, inv.page_eq, inv.slot_eq, show l.length - 1 = i by omega]
  unfold nextLink
  rw [if_neg (show i + 1 ≠ l.length + 1 by omega), ← hlast]
  rcases div_mod_succ inv.perPage_pos i with ⟨-, hdiv, hmod⟩ | ⟨-, hdiv, hmod⟩
  · -- the new pbe shares the page of the one before it
    have hpage : pbePage a pages i = pbePage a pages (i + 1) := by
      unfold pbePage
      rw [hdiv]
    rw [hpage, if_neg (show ¬some (pbePage a pages (i + 1)) ≠ some (pbePage a pages (i + 1)) from
      fun h => h rfl), if_neg (show (i + 1) % pbesPerPage a ≠ 0 by omega)]
  · -- the new pbe opens a page
    have hne := pbePage_ne inv.pages_nodup (show i / pbesPerPage a ≠ (i + 1) / pbesPerPage a by
      omega) (inv.div_lt (show i ≤ l.length by omega)) (inv.div_lt (le_of_eq hlast))
    rw [if_pos (show some (pbePage a pages i) ≠ some (pbePage a pages (i + 1)) by simpa using hne),
      if_pos hmod]

theorem HighLayout.link_entries (inv : HighLayout a kmap pages l b) (pb : LoadPbe) {i : Nat}
    (hi : i < (l ++ [pb]).length) :
    (linkHighPbe a kmap b pb.origAddress pb.address).mem.entries (pbePage a pages i)
        (i % pbesPerPage a) =
      ⟨(l ++ [pb])[i].address, (l ++ [pb])[i].origAddress,
        nextLink a kmap pages (l.length + 1) i⟩ := by
  have hnd := inv.pages_nodup
  rw [List.length_append, List.length_singleton] at hi
  rw [linkHighPbe_mem]
  rcases Nat.lt_succ_iff_lt_or_eq.mp hi with hi | rfl
  · -- a pbe made before: only its link may change
    have hnew := pbePage_slot_ne hnd (Nat.ne_of_lt hi) (inv.div_lt hi.le) (inv.div_lt le_rfl)
    have hl : l ≠ [] := List.ne_nil_of_length_pos (by omega)
    have hprev : l.length - 1 + 1 = l.length := by omega
    have hvalue := inv.link_value hprev
    rw [inv.page_eq, inv.slot_eq]
    rw [inv.lastPtr_eq, if_neg hl, List.getElem_append_left hi]
    by_cases hlast : i = l.length - 1
    · subst hlast
      rw [PbeMemory.store_entry_self, PbeMemory.write_entries_of_ne _ _ hnew, inv.entries_eq _ hi]
      rw [inv.page_eq, inv.slot_eq] at hvalue
      rw [hvalue]
    · rw [PbeMemory.store_entry_of_ne _ _ (pbePage_slot_ne hnd hlast (inv.div_lt hi.le)
        (inv.div_lt (by omega))), PbeMemory.write_entries_of_ne _ _ hnew, inv.entries_eq _ hi,
        nextLink_succ (by omega)]
  · -- the new pbe, in the slot `this_high_pbe` points at
    have hold : PbeMemory.entries ((b.mem.write b.page b.slot ⟨pb.address, pb.origAddress, 0⟩).store
        b.lastPtr (if b.lastPage ≠ some b.page then b.page
          else kmap.addr b.page + b.slot * sizeofPbe a)) b.page b.slot =
        ⟨pb.address, pb.origAddress, 0⟩ := by
      rw [inv.lastPtr_eq]
      by_cases hl : l = []
      · rw [if_pos hl]
        simp
      · have hlen := List.length_pos_of_ne_nil hl
        rw [if_neg hl, PbeMemory.store_entry_of_ne, PbeMemory.write_entries_self]
        rw [inv.page_eq, inv.slot_eq]
        exact (pbePage_slot_ne hnd (show l.length ≠ l.length - 1 by omega)
          (inv.div_lt le_rfl) (inv.div_lt (by omega)))
    rw [← inv.page_eq, ← inv.slot_eq, hold, List.getElem_concat_length rfl]
    unfold nextLink
    rw [if_pos rfl]

theorem HighLayout.link_head (inv : HighLayout a kmap pages l b) (pb : LoadPbe) :
    (linkHighPbe a kmap b pb.origAddress pb.address).mem.head = pbePage a pages 0 := by
  rw [linkHighPbe_mem, inv.lastPtr_eq]
  by_cases hl : l = []
  · subst hl
    rw [if_pos rfl, PbeMemory.store_head_head, inv.lastPage_eq, if_pos rfl, if_pos (by simp),
      inv.page_eq]
    rfl
  · rw [if_neg hl, PbeMemory.store_entry_head, PbeMemory.write_head, inv.head_eq hl]

theorem HighLayout.linked (inv : HighLayout a kmap pages l b) (pb : LoadPbe) (qs : List Nat) :
    (∀ i (hi : i < (l ++ [pb]).length),
      (linkHighPbe a kmap b pb.origAddress pb.address).mem.entries
          (pbePage a (pages ++ qs) i) (i % pbesPerPage a) =
        ⟨(l ++ [pb])[i].address, (l ++ [pb])[i].origAddress,
          nextLink a kmap (pages ++ qs) (l ++ [pb]).length i⟩) ∧
    (linkHighPbe a kmap b pb.origAddress pb.address).mem.head = pbePage a (pages ++ qs) 0 ∧
    b.page = pbePage a (pages ++ qs) l.length := by
  have hlen : (l ++ [pb]).length = l.length + 1 := by simp
  refine ⟨fun i hi => ?_, ?_, ?_⟩
  · have hi' : i ≤ l.length := by omega
    rw [pbePage_append (inv.div_lt hi'), hlen, nextLink_append fun h => inv.div_lt (by omega)]
    exact inv.link_entries pb hi
  · rw [pbePage_append (inv.div_lt (Nat.zero_le _))]
    exact inv.link_head pb
  · rw [pbePage_append (inv.div_lt le_rfl), inv.page_eq]

theorem HighLayout.moved (inv : HighLayout a kmap pages l b) (pb : LoadPbe) {qs : List Nat}
    {page slot : Nat} {supply : PageSupply}
    (hsub : List.Sublist ((pages ++ qs) ++ supply.alloc) (pages ++ b.supply.alloc))
    (hlen : (pages ++ qs).length = (l.length + 1) / pbesPerPage a + 1)
    (hpage : page = pbePage a (pages ++ qs) (l.length + 1))
    (hslot : slot = (l.length + 1) % pbesPerPage a) :
    HighLayout a kmap (pages ++ qs) (l ++ [pb])
      { linkHighPbe a kmap b pb.origAddress pb.address with
        page := page, slot := slot, supply := supply } := by
  obtain ⟨hentries, hhead, hbpage⟩ := inv.linked pb qs
  have hlen' : (l ++ [pb]).length = l.length + 1 := by simp
  exact {
    perPage_pos := inv.perPage_pos
    nodup := inv.nodup.sublist hsub
    pos := fun q hq => inv.pos q (hsub.subset hq)
    length_pages := by rw [hlen, hlen']
    page_eq := by rw [hlen']; exact hpage
    slot_eq := by rw [hlen']; exact hslot
    entries_eq := hentries
    head_eq := fun _ => hhead
    lastPage_eq := by simp [hbpage]
    lastPtr_eq := by simp [hbpage, inv.slot_eq] }

/-- One highmem pbe keeps the layout: it lies in the slot after the last pbe, and
`get_next_pbe` moves on to the next slot or to a page from the allocator, which joins the
pages. -/
theorem HighLayout.step (inv : HighLayout a kmap pages l b) {pb : LoadPbe} {b' : HighBuild}
    (h : highPbeStep a ps1 kmap b pb = some b') :
    ∃ qs, (∀ q ∈ qs ++ b'.supply.alloc, q ∈ b.supply.alloc) ∧
      HighLayout a kmap (pages ++ qs) (l ++ [pb]) b' := by
  unfold highPbeStep at h
  simp only [linkHighPbe_page, linkHighPbe_slot, linkHighPbe_supply] at h
  have hP := inv.perPage_pos
  have hslot : b.slot < pbesPerPage a := by
    rw [inv.slot_eq]
    exact Nat.mod_lt _ hP
  cases hg : getNextPbe a ps1 b.page b.slot b.supply with
  | mk next? s' =>
    rw [hg] at h
    cases next? with
    | none => cases h
    | some next =>
      simp only [Option.some.injEq] at h
      subst h
      have hpage := (inv.linked pb []).2.2
      rcases getNextPbe_cases hslot hg with ⟨hlt, rfl, rfl⟩ | ⟨hlast, hslot0, pre, halloc⟩
      · -- the next slot of the same page
        have ⟨hdiv, hmod⟩ : (l.length + 1) / pbesPerPage a = l.length / pbesPerPage a ∧
            (l.length + 1) % pbesPerPage a = l.length % pbesPerPage a + 1 := by
          rcases div_mod_succ hP l.length with ⟨-, h1, h2⟩ | ⟨h0, -, -⟩
          · exact ⟨h1, h2⟩
          · rw [inv.slot_eq] at hlt
            omega
        refine ⟨[], fun q hq => by simpa using hq, inv.moved pb (by simp) ?_ ?_ ?_⟩
        · rw [List.append_nil, hdiv, inv.length_pages]
        · rw [hpage]
          unfold pbePage
          rw [hdiv]
        · rw [hmod, inv.slot_eq]
      · -- a page from the allocator, the next of the list
        obtain ⟨page', slot'⟩ := next
        dsimp only at hslot0 ⊢
        subst hslot0
        have ⟨hdiv, hmod⟩ : (l.length + 1) / pbesPerPage a = l.length / pbesPerPage a + 1 ∧
            (l.length + 1) % pbesPerPage a = 0 := by
          rcases div_mod_succ hP l.length with ⟨h0, -, -⟩ | ⟨-, h1, h2⟩
          · rw [inv.slot_eq] at hlast
            omega
          · exact ⟨h1, h2⟩
        have hsub : List.Sublist ((pages ++ [page']) ++ s'.alloc) (pages ++ b.supply.alloc) := by
          rw [halloc, List.append_assoc]
          exact (List.sublist_append_right pre _).append_left pages
        have hfrom : ∀ q ∈ [page'] ++ s'.alloc, q ∈ b.supply.alloc := fun q hq => by
          rw [halloc]
          exact List.mem_append_right _ (by simpa using hq)
        have hidx : (l.length + 1) / pbesPerPage a = pages.length := by
          rw [hdiv, inv.length_pages]
        refine ⟨[page'], hfrom, inv.moved pb hsub ?_ ?_ hmod.symm⟩
        · rw [hidx, List.length_append]
          rfl
        · simp only [pbePage, hidx, List.getD_append_right _ _ _ _ le_rfl, Nat.sub_self]
          rfl

theorem highLayout_start (hP : 0 < pbesPerPage a) (mem : PbeMemory) {page : Nat}
    {supply : PageSupply} (hnodup : (page :: supply.alloc).Nodup)
    (hpos : ∀ q ∈ page :: supply.alloc, 0 < q) :
    HighLayout a kmap [page] [] (HighBuild.start mem page supply) where
  perPage_pos := hP
  nodup := hnodup
  pos := hpos
  length_pages := by simp
  page_eq := by simp [pbePage, HighBuild.start]
  slot_eq := by simp [HighBuild.start]
  entries_eq := fun i hi => absurd hi (Nat.not_lt_zero i)
  head_eq := fun h => absurd rfl h
  lastPage_eq := rfl
  lastPtr_eq := rfl

theorem HighLayout.run (inv : HighLayout a kmap pages l b) {pbes : List LoadPbe} {b' : HighBuild}
    (h : buildHighPblist a ps1 kmap b pbes = some b') :
    ∃ qs, (∀ q ∈ qs, q ∈ b.supply.alloc) ∧ HighLayout a kmap (pages ++ qs) (l ++ pbes) b' := by
  -- the pages taken so far and those still to hand out all come from the allocator's list
  obtain ⟨qs, hqs, inv'⟩ := foldlM_option_invariant (P := fun done s => ∃ qs,
      (∀ q ∈ qs ++ s.supply.alloc, q ∈ b.supply.alloc) ∧ HighLayout a kmap (pages ++ qs) done s)
    (fun _ _ _ _ ⟨qs, hqs, inv⟩ hs => by
      obtain ⟨qs', hqs', inv'⟩ := inv.step hs
      refine ⟨qs ++ qs', fun q hq => ?_, by rwa [← List.append_assoc]⟩
      rw [List.append_assoc, List.mem_append] at hq
      rcases hq with hq | hq
      · exact hqs q (List.mem_append_left _ hq)
      · exact hqs q (List.mem_append_right _ (hqs' q hq)))
    ⟨[], fun q hq => by simpa using hq, by rwa [List.append_nil]⟩ h
  exact ⟨qs, fun q hq => hqs q (List.mem_append_left _ hq), inv'⟩

/-- The highmem list the loop builds from its start lies as `HighLayout` says, in the first pbe
page and then pages from the allocator. -/
theorem buildHighPblist_layout (hP : 0 < pbesPerPage a) {mem : PbeMemory} {page : Nat}
    {supply : PageSupply} (hnodup : (page :: supply.alloc).Nodup)
    (hpos : ∀ q ∈ page :: supply.alloc, 0 < q)
    (hbuild : buildHighPblist a ps1 kmap (HighBuild.start mem page supply) l = some b) :
    ∃ qs, (∀ q ∈ qs, q ∈ supply.alloc) ∧ HighLayout a kmap (page :: qs) l b := by
  have start : HighLayout a kmap [page] [] (HighBuild.start mem page supply) :=
    highLayout_start hP mem hnodup hpos
  obtain ⟨qs, hqs, inv⟩ := start.run hbuild
  rw [List.nil_append] at inv
  exact ⟨qs, hqs, inv⟩

theorem HighLayout.nextLink_pos (inv : HighLayout a kmap pages l b) {i : Nat}
    (h : i + 1 < l.length) : 0 < nextLink a kmap pages l.length i := by
  unfold nextLink
  rw [if_neg (by omega)]
  split_ifs
  · exact inv.pos _ (List.mem_append_left _ (pbePage_mem (inv.div_lt (by omega))))
  · have := kmap.addr_pos (pbePage a pages i)
    omega

end Run

/-! ### The readers on the list the builder leaves -/

section Readers

variable {a : Arch} {kmap : Kmap} {ps1 : MemoryBitmap} {pages : List Nat} {l : List LoadPbe}
  {b : HighBuild}

theorem HighLayout.copybackHighFrom_eq (inv : HighLayout a kmap pages l b) :
    ∀ (k i fuel : Nat), i + k + 1 = l.length → k < fuel →
      copybackHighFrom (pbesPerPage a) b.mem fuel (pbePage a pages i) (i % pbesPerPage a) =
        some ((l.drop i).map fun pb => (pb.origAddress, pb.address))
  | _, _, 0, _, hk => absurd hk (Nat.not_lt_zero _)
  | 0, i, fuel + 1, hn, _ => by
    have hi : i < l.length := by omega
    -- the last pbe: its `next` ends the walk
    simp only [copybackHighFrom, inv.entries_eq i hi, nextLink, if_pos (show i + 1 = l.length by
      omega)]
    rw [List.drop_eq_getElem_cons hi, List.drop_eq_nil_of_le (by omega)]
    rfl
  | k + 1, i, fuel + 1, hn, hk => by
    have hi : i < l.length := by omega
    have hnext := inv.nextLink_pos (i := i) (by omega)
    have hrest := HighLayout.copybackHighFrom_eq inv k (i + 1) fuel (by omega) (by omega)
    simp only [copybackHighFrom, inv.entries_eq i hi, if_neg (Nat.pos_iff_ne_zero.mp hnext)]
    rw [List.drop_eq_getElem_cons hi, List.map_cons]
    rcases div_mod_succ inv.perPage_pos i with ⟨hlt, hdiv, hmod⟩ | ⟨hlast, hdiv, hmod⟩
    · -- the next pbe is the next entry of the page
      have hpage : pbePage a pages (i + 1) = pbePage a pages i := by
        unfold pbePage
        rw [hdiv]
      rw [if_pos hlt, ← hmod, ← hpage, hrest]
      rfl
    · -- the last entry of a page links to the next page
      have hlink : nextLink a kmap pages l.length i = pbePage a pages (i + 1) := by
        unfold nextLink
        rw [if_neg (by omega), if_pos hmod]
      rw [if_neg (by omega), hlink, ← hmod, hrest]
      rfl

/-- The highmem pbes of the loop, built from a list head that is `NULL`: `copyback_high` copies
every one once, in the order they were made, wherever the pages are mapped when it runs. -/
theorem copyback_high_copies_all (hP : 0 < pbesPerPage a) {mem : PbeMemory} {page : Nat}
    {supply : PageSupply} (hnodup : (page :: supply.alloc).Nodup)
    (hpos : ∀ q ∈ page :: supply.alloc, 0 < q) (hhead : mem.head = 0)
    (hbuild : buildHighPblist a ps1 kmap (HighBuild.start mem page supply) l = some b) :
    copybackHigh (pbesPerPage a) l.length b.mem =
      some (l.map fun pb => (pb.origAddress, pb.address)) := by
  obtain ⟨qs, -, inv⟩ := buildHighPblist_layout hP hnodup hpos hbuild
  unfold copybackHigh
  cases l with
  | nil =>
    -- nothing was made: the head is still `NULL`
    cases hbuild
    rw [if_pos (show (HighBuild.start mem page supply).mem.head = 0 from hhead)]
    rfl
  | cons pb l =>
    rw [inv.head_eq (List.cons_ne_nil _ _), pbePage_zero_cons,
      if_neg (hpos page List.mem_cons_self).ne']
    have := inv.copybackHighFrom_eq l.length 0 (l.length + 1) (by simp) (by omega)
    rwa [pbePage_zero_cons, Nat.zero_mod, List.drop_zero] at this

/-- Page `p` mapped at `64 * (p + 1)`, pages of `tinyPages` one after another. -/
def buildKmap : Kmap := ⟨fun p => 64 * (p + 1), fun _ => by omega⟩

/-- Three highmem pbes: pages 10, 11 and 12 copied from 20, 21 and 22. -/
def threeHighPbes : List LoadPbe := [⟨10, 20⟩, ⟨11, 21⟩, ⟨12, 22⟩]

/-- The three pbes written two to a page from a zeroed memory: page 30 first, page 31 from the
allocator. -/
def threeHighBuild : Option HighBuild :=
  buildHighPblist tinyPages MemoryBitmap.empty buildKmap
    (HighBuild.start ⟨fun _ _ => Pbe.zero, 0⟩ 30 ⟨[31], []⟩) threeHighPbes

/-- The third pbe lies in page 31, reached by the link of page 30. -/
theorem copyback_high_three_pbes :
    ∃ b, threeHighBuild = some b ∧ copybackHigh 2 3 b.mem = some [(10, 20), (11, 21), (12, 22)] :=
  ⟨_, rfl, copyback_high_copies_all (a := tinyPages) (l := threeHighPbes) (by decide) (by decide)
    (by decide) rfl (rfl : threeHighBuild = some _)⟩

/-- A `for` loop of `free_pbe_list` that starts at `NULL` frees nothing. -/
@[simp] theorem freePbeEntries_null (read : Nat → Pbe) : ∀ n, freePbeEntries read n 0 = ([], 0)
  | 0 => rfl
  | _ + 1 => rfl

/-- `free_pbe_list` on an empty list frees nothing. -/
@[simp] theorem freePbeList_null (P : Nat) (highmem : Bool) (kmap : Kmap) (virtToPage : Nat → Nat)
    (read : Nat → Pbe) : ∀ fuel, freePbeList P highmem kmap virtToPage read fuel 0 = ([], 0)
  | 0 => rfl
  | _ + 1 => rfl

theorem HighLayout.freePbeEntries_succ (inv : HighLayout a kmap pages l b) {read : Nat → Pbe}
    (hmapped : ∀ q, ∀ k < pbesPerPage a,
      read (kmap.addr q + k * sizeofPbe a) = b.mem.entries q k) {r t : Nat} (ht : t < l.length) :
    freePbeEntries read (r + 1)
        (kmap.addr (pbePage a pages t) + t % pbesPerPage a * sizeofPbe a) =
      (l[t].address :: (freePbeEntries read r (nextLink a kmap pages l.length t)).1,
        (freePbeEntries read r (nextLink a kmap pages l.length t)).2) := by
  have hne : kmap.addr (pbePage a pages t) + t % pbesPerPage a * sizeofPbe a ≠ 0 :=
    (Nat.add_pos_left (kmap.addr_pos _) _).ne'
  rw [freePbeEntries, if_neg hne, hmapped _ _ (Nat.mod_lt _ inv.perPage_pos), inv.entries_eq t ht]

/-- With the pages mapped where they were built, the `for` loop of `free_pbe_list` from pbe `t`,
with `r + 1` entries of its page left, frees the copies of the pbes up to the end of the page or
of the list, and stops at the next page, or at `NULL` after the last pbe. -/
theorem HighLayout.freePbeEntries_eq (inv : HighLayout a kmap pages l b) {read : Nat → Pbe}
    (hmapped : ∀ q, ∀ k < pbesPerPage a,
      read (kmap.addr q + k * sizeofPbe a) = b.mem.entries q k) :
    ∀ (r t : Nat), t % pbesPerPage a + r + 1 = pbesPerPage a → t < l.length →
      freePbeEntries read (r + 1)
          (kmap.addr (pbePage a pages t) + t % pbesPerPage a * sizeofPbe a) =
        (((l.drop t).take (r + 1)).map LoadPbe.address,
          if t + r + 1 < l.length then pbePage a pages (t + r + 1) else 0)
  | r, t, hr, ht => by
    rw [inv.freePbeEntries_succ hmapped ht, List.drop_eq_getElem_cons ht, List.take_succ_cons,
      List.map_cons]
    by_cases hlast : t + 1 = l.length
    · -- the last pbe: its `next` is `NULL`
      have hnull : nextLink a kmap pages l.length t = 0 := by
        unfold nextLink
        rw [if_pos hlast]
      rw [hnull, freePbeEntries_null, List.drop_eq_nil_of_le (by omega), List.take_nil,
        List.map_nil, if_neg (by omega)]
    · rcases div_mod_succ inv.perPage_pos t with ⟨hlt, hdiv, hmod⟩ | ⟨hend, hdiv, hmod⟩
      · -- the next pbe is the next entry of the page
        cases r with
        | zero => omega
        | succ r =>
          have hpage : pbePage a pages (t + 1) = pbePage a pages t := by
            unfold pbePage
            rw [hdiv]
          have hlink : nextLink a kmap pages l.length t =
              kmap.addr (pbePage a pages (t + 1)) + (t + 1) % pbesPerPage a * sizeofPbe a := by
            unfold nextLink
            rw [if_neg hlast, if_neg (by omega), hpage]
          rw [hlink, inv.freePbeEntries_eq hmapped r (t + 1) (by omega) (by omega),
            show t + (r + 1) + 1 = t + 1 + r + 1 by omega]
      · -- the last entry of the page links to the next page, and the loop ends there
        obtain rfl : r = 0 := by omega
        have hlink : nextLink a kmap pages l.length t = pbePage a pages (t + 1) := by
          unfold nextLink
          rw [if_neg hlast, if_pos hmod]
        rw [hlink, if_pos (by omega)]
        rfl

/-- What freeing the list should free, page by page: the copies of the pbes of a page, then the
page. -/
def freedByPage (P : Nat) : List Nat → List LoadPbe → List Nat
  | [], _ => []
  | page :: pages, l => (l.take P).map LoadPbe.address ++ page :: freedByPage P pages (l.drop P)

/-- With the pages mapped where they were built, `free_pbe_list` from the pbe page `j` frees the
copies of the pbes from there on, page by page, each page after its copies, and leaves the head
`NULL`, with one pass per page. -/
theorem HighLayout.freePbeList_eq (inv : HighLayout a kmap pages l b) {read : Nat → Pbe}
    (hmapped : ∀ q, ∀ k < pbesPerPage a,
      read (kmap.addr q + k * sizeofPbe a) = b.mem.entries q k) (virtToPage : Nat → Nat) :
    ∀ (k j fuel : Nat), (j + k) * pbesPerPage a < l.length →
      l.length ≤ (j + k + 1) * pbesPerPage a → k < fuel →
      freePbeList (pbesPerPage a) true kmap virtToPage read fuel
          (pbePage a pages (j * pbesPerPage a)) =
        (freedByPage (pbesPerPage a) ((pages.drop j).take (k + 1)) (l.drop (j * pbesPerPage a)), 0)
  | _, _, 0, _, _, hk => absurd hk (Nat.not_lt_zero _)
  | k, j, fuel + 1, hfirst, hlast, hk => by
    have hP := inv.perPage_pos
    obtain ⟨r, hr⟩ : ∃ r, pbesPerPage a = r + 1 := ⟨pbesPerPage a - 1, by omega⟩
    have ht : j * pbesPerPage a < l.length :=
      lt_of_le_of_lt (Nat.mul_le_mul_right _ (Nat.le_add_right j k)) hfirst
    have hdiv : j * pbesPerPage a / pbesPerPage a = j := Nat.mul_div_cancel _ hP
    have hj : j < pages.length := by
      have := inv.div_lt ht.le
      rwa [hdiv] at this
    have hpage : pbePage a pages (j * pbesPerPage a) = pages[j] := by
      unfold pbePage
      rw [hdiv, List.getD_eq_getElem _ _ hj]
    have hpos : pages[j] ≠ 0 := (inv.pos _ (List.mem_append_left _ (List.getElem_mem hj))).ne'
    have hnext : j * pbesPerPage a + r + 1 = (j + 1) * pbesPerPage a := by
      rw [Nat.add_mul, Nat.one_mul, hr]
      omega
    -- the `for` loop over page `j`
    have hentries := inv.freePbeEntries_eq hmapped r (j * pbesPerPage a)
      (by rw [Nat.mul_mod_left]; omega) ht
    simp only [Nat.mul_mod_left, Nat.zero_mul, Nat.add_zero, hpage, hnext, ← hr] at hentries
    rw [hpage, freePbeList, if_neg hpos]
    simp only [↓reduceIte, hentries]
    rw [List.drop_eq_getElem_cons hj, List.take_succ_cons, freedByPage, List.drop_drop]
    cases k with
    | zero =>
      -- the last page
      rw [Nat.add_zero] at hlast
      rw [if_neg (by omega), freePbeList_null, List.take_zero, freedByPage]
    | succ k =>
      -- the next page, reached by the link in the last entry of this one
      have hmore : (j + 1) * pbesPerPage a < l.length :=
        lt_of_le_of_lt (Nat.mul_le_mul_right _ (by omega)) hfirst
      have hrest := inv.freePbeList_eq hmapped virtToPage k (j + 1) fuel
        (by rw [show j + 1 + k = j + (k + 1) by omega]; exact hfirst)
        (by rw [show j + 1 + k + 1 = j + (k + 1) + 1 by omega]; exact hlast) (by omega)
      rw [if_pos hmore, hrest, Nat.add_one_mul]

/-- The highmem pbes of the loop, with every page mapped where it was built when
`free_pbe_list` runs: it frees the copies of the pbes and the pbe pages that hold them, page by
page, each page after its copies, with one pass per page, and leaves the head `NULL`. The pbe
pages are distinct pages from the allocator, the first pbe page first, as many as the pbes
fill. -/
theorem free_pbe_list_frees_all (hP : 0 < pbesPerPage a) {mem : PbeMemory} {page : Nat}
    {supply : PageSupply} (hnodup : (page :: supply.alloc).Nodup)
    (hpos : ∀ q ∈ page :: supply.alloc, 0 < q)
    (hbuild : buildHighPblist a ps1 kmap (HighBuild.start mem page supply) l = some b)
    (hl : l ≠ []) (read : Nat → Pbe)
    (hmapped : ∀ q, ∀ k < pbesPerPage a,
      read (kmap.addr q + k * sizeofPbe a) = b.mem.entries q k)
    (virtToPage : Nat → Nat) :
    ∃ pages, pages.Nodup ∧ pages.head? = some page ∧ (∀ q ∈ pages, q ∈ page :: supply.alloc) ∧
      (pages.length - 1) * pbesPerPage a < l.length ∧ l.length ≤ pages.length * pbesPerPage a ∧
      freePbeList (pbesPerPage a) true kmap virtToPage read pages.length b.mem.head =
        (freedByPage (pbesPerPage a) pages l, 0) := by
  obtain ⟨qs, hqs, inv⟩ := buildHighPblist_layout hP hnodup hpos hbuild
  have hlen := List.length_pos_of_ne_nil hl
  -- the pages that hold pbes: up to that of the last pbe
  have hlast : (l.length - 1) / pbesPerPage a < (page :: qs).length := inv.div_lt (by omega)
  have htake : ((page :: qs).take ((l.length - 1) / pbesPerPage a + 1)).length =
      (l.length - 1) / pbesPerPage a + 1 := by
    rw [List.length_take]
    omega
  have hbelow : (l.length - 1) / pbesPerPage a * pbesPerPage a < l.length :=
    lt_of_le_of_lt (Nat.div_mul_le_self _ _) (by omega)
  have habove : l.length ≤ ((l.length - 1) / pbesPerPage a + 1) * pbesPerPage a := by
    have := Nat.lt_div_mul_add (a := l.length - 1) hP
    rw [Nat.add_one_mul]
    omega
  refine ⟨(page :: qs).take ((l.length - 1) / pbesPerPage a + 1),
    inv.pages_nodup.sublist (List.take_sublist _ _), by simp, fun q hq => ?_, ?_, ?_, ?_⟩
  · rcases List.mem_cons.mp (List.mem_of_mem_take hq) with rfl | hq
    · exact List.mem_cons_self
    · exact List.mem_cons_of_mem _ (hqs q hq)
  · rw [htake, Nat.add_sub_cancel]
    exact hbelow
  · rw [htake]
    exact habove
  · have hwalk := inv.freePbeList_eq hmapped virtToPage ((l.length - 1) / pbesPerPage a) 0
      ((l.length - 1) / pbesPerPage a + 1) (by rwa [Nat.zero_add]) (by rwa [Nat.zero_add]) (by omega)
    rw [Nat.zero_mul, List.drop_zero, List.drop_zero, pbePage_zero_cons] at hwalk
    rw [htake, inv.head_eq hl, pbePage_zero_cons]
    exact hwalk

/-- What the pbe pointers read with the pages mapped by `buildKmap`, two pbes to a page. -/
def mappedRead (mem : PbeMemory) (v : Nat) : Pbe := mem.entries (v / 64 - 1) (v % 64 / 24)

theorem mappedRead_buildKmap (mem : PbeMemory) (q k : Nat) (hk : k < pbesPerPage tinyPages) :
    mappedRead mem (buildKmap.addr q + k * sizeofPbe tinyPages) = mem.entries q k := by
  have h2 : pbesPerPage tinyPages = 2 := rfl
  have h24 : sizeofPbe tinyPages = 24 := rfl
  rw [h2] at hk
  unfold mappedRead
  rw [h24, show (buildKmap.addr q + k * 24) / 64 - 1 = q by simp only [buildKmap]; omega,
    show (buildKmap.addr q + k * 24) % 64 / 24 = k by simp only [buildKmap]; omega]

/-- With the pages where they were built, the three pbes' copies 20, 21 and 22 and the pbe pages
30 and 31 are freed, each page after its copies. -/
theorem free_pbe_list_frees_three_pbes :
    ∃ b, threeHighBuild = some b ∧
      (∃ pages, pages.Nodup ∧ pages.head? = some 30 ∧ (∀ q ∈ pages, q ∈ [30, 31]) ∧
        (pages.length - 1) * 2 < 3 ∧ 3 ≤ pages.length * 2 ∧
        freePbeList 2 true buildKmap id (mappedRead b.mem) pages.length b.mem.head =
          (freedByPage 2 pages threeHighPbes, 0)) ∧
      freePbeList 2 true buildKmap id (mappedRead b.mem) 2 b.mem.head = ([20, 21, 30, 22, 31], 0) :=
  ⟨_, rfl, free_pbe_list_frees_all (a := tinyPages) (l := threeHighPbes) (by decide) (by decide)
    (by decide) (rfl : threeHighBuild = some _) (by decide) _ (mappedRead_buildKmap _) id,
    by decide⟩

/-- `free_pbe_list` on the highmem list the loop built, with its first pbe page mapped by
`kmapNow` when it runs and at least two pbes in that page: it frees the copy of the first pbe, and
then the page named by whatever lies at the address the second pbe had under the `kmap` of the
build, not the copy of the second pbe read where the page lies now. -/
theorem free_pbe_list_reads_stale_next (hP : 2 ≤ pbesPerPage a) {mem : PbeMemory} {page : Nat}
    {supply : PageSupply} (hnodup : (page :: supply.alloc).Nodup)
    (hpos : ∀ q ∈ page :: supply.alloc, 0 < q) {pb0 pb1 : LoadPbe} {rest : List LoadPbe}
    (hbuild : buildHighPblist a ps1 kmap (HighBuild.start mem page supply) (pb0 :: pb1 :: rest) =
      some b)
    (kmapNow : Kmap) (read : Nat → Pbe)
    (hmapped : ∀ k < pbesPerPage a,
      read (kmapNow.addr page + k * sizeofPbe a) = b.mem.entries page k)
    (virtToPage : Nat → Nat) (fuel : Nat) :
    ∃ freed, (freePbeList (pbesPerPage a) true kmapNow virtToPage read (fuel + 1) b.mem.head).1 =
      pb0.address :: (read (kmap.addr page + sizeofPbe a)).address :: freed := by
  obtain ⟨qs, -, inv⟩ := buildHighPblist_layout (by omega) hnodup hpos hbuild
  -- the first pbe links to the second by its address under the `kmap` of the build
  have hlink : nextLink a kmap (page :: qs) (pb0 :: pb1 :: rest).length 0 =
      kmap.addr page + sizeofPbe a := by
    have hone : 1 % pbesPerPage a = 1 := Nat.mod_eq_of_lt (by omega)
    unfold nextLink
    rw [if_neg (by simp), Nat.zero_add, hone, if_neg Nat.one_ne_zero, Nat.one_mul,
      pbePage_zero_cons]
  -- the first pbe, read where the page lies now
  have hentry : read (kmapNow.addr page) =
      ⟨pb0.address, pb0.origAddress, kmap.addr page + sizeofPbe a⟩ := by
    have h0 := hmapped 0 (by omega)
    rw [Nat.zero_mul, Nat.add_zero] at h0
    have hmade := inv.entries_eq 0 (by simp)
    rw [pbePage_zero_cons, Nat.zero_mod, hlink] at hmade
    rw [h0, hmade]
    rfl
  obtain ⟨P, hPeq⟩ : ∃ P, pbesPerPage a = P + 2 := ⟨pbesPerPage a - 2, by omega⟩
  have hnow : kmapNow.addr page ≠ 0 := (kmapNow.addr_pos page).ne'
  have hstale : kmap.addr page + sizeofPbe a ≠ 0 := (Nat.add_pos_left (kmap.addr_pos page) _).ne'
  rw [inv.head_eq (List.cons_ne_nil _ _), pbePage_zero_cons, hPeq]
  simp only [freePbeList, if_neg (hpos page List.mem_cons_self).ne', if_true, freePbeEntries,
    if_neg hnow, hentry, if_neg hstale]
  exact ⟨_, rfl⟩

/-- i386 highmem pages kmapped one after another while the list is built: page `p` at
`4096 * (p + 1)`. -/
def i386BuildKmap : Kmap := ⟨fun p => 4096 * (p + 1), fun _ => by omega⟩

/-- The same pages kmapped one page further up when the list is freed. -/
def i386LaterKmap : Kmap := ⟨fun p => 4096 * (p + 2), fun _ => by omega⟩

/-- Two highmem pbes on i386, pages 10 and 11 copied from 20 and 21, written into pbe page 30. -/
def twoHighBuildI386 : Option HighBuild :=
  buildHighPblist Arch.i386 MemoryBitmap.empty i386BuildKmap
    (HighBuild.start ⟨fun _ _ => Pbe.zero, 0⟩ 30 ⟨[31], []⟩) [⟨10, 20⟩, ⟨11, 21⟩]

/-- What the pbe pointers read once page 30 is kmapped by `i386LaterKmap`: its pbes at `131072`
on, and, in the page mapped where page 30 was, a word that reads as a pbe of page `999`. -/
def i386LaterRead (mem : PbeMemory) (v : Nat) : Pbe :=
  if v / 4096 = 32 then mem.entries 30 (v % 4096 / 12) else ⟨999, 0, 0⟩

theorem i386LaterRead_page (mem : PbeMemory) (k : Nat) (hk : k < pbesPerPage Arch.i386) :
    i386LaterRead mem (i386LaterKmap.addr 30 + k * sizeofPbe Arch.i386) = mem.entries 30 k := by
  have h341 : pbesPerPage Arch.i386 = 341 := rfl
  have h12 : sizeofPbe Arch.i386 = 12 := rfl
  rw [h341] at hk
  unfold i386LaterRead
  rw [h12, if_pos (by simp only [i386LaterKmap]; omega),
    show (i386LaterKmap.addr 30 + k * 12) % 4096 / 12 = k by simp only [i386LaterKmap]; omega]

/-- Page 30 is kmapped elsewhere when the list is freed: `free_pbe_list` frees page 999 after the
copy of the first pbe, and then stops, leaving the copy of the second pbe allocated. -/
theorem free_pbe_list_stale_i386 :
    ∃ b, twoHighBuildI386 = some b ∧
      (∃ freed, (freePbeList (pbesPerPage Arch.i386) true i386LaterKmap id (i386LaterRead b.mem) 4
        b.mem.head).1 = 20 :: 999 :: freed) ∧
      freePbeList (pbesPerPage Arch.i386) true i386LaterKmap id (i386LaterRead b.mem) 4
        b.mem.head = ([20, 999, 30], 0) := by
  refine ⟨_, rfl, ?_, ?_⟩
  · exact free_pbe_list_reads_stale_next (a := Arch.i386) (by decide) (by decide) (by decide)
      (rfl : twoHighBuildI386 = some _) i386LaterKmap _ (i386LaterRead_page _) id 3
  · decide +kernel

end Readers

end TuxOnIceFastboot.Restore
