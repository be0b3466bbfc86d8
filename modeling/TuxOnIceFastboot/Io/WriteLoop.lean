import TuxOnIceFastboot.Io.Worker
import TuxOnIceFastboot.Lib.Threads
import TuxOnIceFastboot.Atomic.Copy

/-!
# Writing pageset 1

`write_pageset(&pagedir1)` runs `do_rw_loop` over `pageset1_copy_map`: `io_map` holds the first
`pagedir1.size` copy pfns, and each iteration of a worker takes, under `io_mutex`, the least pfn
left in `io_map` and the next pfn of `pageset1_map`. Since `io_map` is cleared as it goes, its
least pfn is the `k`-th copy pfn when `k` pfns have been taken; the `k`-th take therefore pairs
the `k`-th copy pfn with the `k`-th pfn of `pageset1_map`, the pair that `toi_copy_pageset1`
copied.

The invariant `WriteInv P C F s k` says so for the `k` pfns taken so far: the records written and
those the threads are about to write are the first `k` pairs, and `io_count = F - k`. Every step
keeps it for some `k` (`WriteInv.step`). When `toi_io_workers` is back to 0 after a worker has
exited, which is where `do_rw_loop` stops waiting, all `F` pairs have been written
(`WriteInv.written_of_done`).
-/

namespace TuxOnIceFastboot.Io

open TuxOnIceFastboot.Lib TuxOnIceFastboot.Snapshot TuxOnIceFastboot.Atomic

/-- `do_rw_loop` as `write_pageset(&pagedir1)` calls it when neither `TOI_TEST_FILTER_SPEED` nor
`TOI_TEST_BIO` is set: writing, pageset 1, `finish_at = pagedir1.size`. The write branch never
tests `PageResave`. -/
def writePageset1Params (size : Nat) : IoParams := ⟨true, 1, size, fun _ => false⟩

/-- The start of `do_rw_loop` in `write_pageset(&pagedir1)`: `pageflags = pageset1_copy_map`. -/
def writePageset1 (pageset1Map pageset1CopyMap : MemoryBitmap) (size threads : Nat) :
    Option IoState :=
  doRwLoopInit (writePageset1Params size) pageset1CopyMap pageset1Map [] threads

/-- The record a thread is about to write: its pfn and the pfn of its data. -/
def WorkerPc.pendingRecord : WorkerPc → Option (Option Nat × Nat)
  | .writing writePfn dataPfn => some (writePfn, dataPfn)
  | _ => none

/-- The records of pageset 1 in the order the workers take them: the `i`-th pfn of
`pageset1_map` with the data of the `i`-th copy pfn. -/
def pageset1Records (P C : List Nat) (size : Nat) : List (Option Nat × Nat) :=
  List.zip ((P.take size).map some) (C.take size)

section Records

variable {P C : List Nat} {F k : Nat}

theorem pageset1Records_take_succ (hk : k < F) (hP : F ≤ P.length) (hC : F ≤ C.length) :
    (pageset1Records P C F).take (k + 1) =
      (pageset1Records P C F).take k ++ [(some P[k], C[k])] := by
  have hlen : k < (pageset1Records P C F).length := by simp [pageset1Records]; omega
  rw [List.take_add_one, List.getElem?_eq_getElem hlen]
  simp [pageset1Records]

theorem nodup_pageset1Records_data {C : List Nat} (hC : C.Pairwise (· < ·)) (hlen : F ≤ P.length) :
    ((pageset1Records P C F).map Prod.snd).Nodup := by
  rw [pageset1Records, List.map_snd_zip (by simp; omega)]
  exact ((hC.sublist (List.take_sublist F C)).imp Nat.ne_of_lt)

end Records

/-- The invariant of the write loop of pageset 1, `k` pfns having been taken. -/
structure WriteInv (P C : List Nat) (F : Nat) (s : IoState) (k : Nat) : Prop where
  taken_le : k ≤ F
  ioMap_bits : s.ioMap.bits = (C.take F).drop k
  ioMap_iter : s.ioMap.IterAt 0
  pageset1_bits : s.pageset1Map.bits = P
  pageset1_iter : s.pageset1Map.IterAt k
  ioCount_eq : s.ioCount = (F : Int) - k
  /-- The records written and those being written are the first `k` pairs. -/
  records : (s.written ++ s.threads.filterMap WorkerPc.pendingRecord).Perm
    ((pageset1Records P C F).take k)
  workers : s.ioWorkers = (s.threads.map WorkerPc.registered).sum
  writing : ∀ pc ∈ s.threads, pc ≠ .reading ∧ pc ≠ .unwanted
  no_bug : s.bug = false
  /-- The last worker leaves only when every pfn is taken. -/
  done : s.ioWorkers = 0 → WorkerPc.exited ∈ s.threads → k = F

section Step

variable {p : IoParams} {P C : List Nat} {F k : Nat} {s : IoState} {t : Nat} {pc : WorkerPc}

theorem WriteInv.ioWorkers_pos (hinv : WriteInv P C F s k) (hpc : s.threads[t]? = some pc)
    (hreg : pc.registered = 1) : 0 < s.ioWorkers := by
  have := le_sum_map hpc WorkerPc.registered
  rw [hinv.workers]
  omega

theorem WriteInv.writing_set (hinv : WriteInv P C F s k) {b : WorkerPc} (hb : b ≠ .reading)
    (hb' : b ≠ .unwanted) : ∀ pc ∈ s.threads.set t b, pc ≠ .reading ∧ pc ≠ .unwanted := by
  intro pc hmem
  rcases List.mem_or_eq_of_mem_set hmem with hmem | rfl
  · exact hinv.writing pc hmem
  · exact ⟨hb, hb'⟩

theorem WriteInv.start (hinv : WriteInv P C F s k) (hpc : s.threads[t]? = some .idle) :
    WriteInv P C F
      { s with ioWorkers := s.ioWorkers + 1, threads := s.threads.set t .entering } k := by
  have hsum := sum_map_set hpc WorkerPc.registered .entering
  have hperm := filterMap_set_perm hpc WorkerPc.pendingRecord .entering
  simp only [WorkerPc.registered, WorkerPc.pendingRecord, Option.toList_none,
    List.append_nil] at hsum hperm
  refine ⟨hinv.taken_le, hinv.ioMap_bits, hinv.ioMap_iter, hinv.pageset1_bits,
    hinv.pageset1_iter, hinv.ioCount_eq, (hperm.append_left _).trans hinv.records, ?_,
    hinv.writing_set (by simp) (by simp), hinv.no_bug, fun h => by simp at h⟩
  have := hinv.workers
  dsimp only
  omega

theorem WriteInv.io (hinv : WriteInv P C F s k) {writePfn : Option Nat} {dataPfn : Nat}
    (hpc : s.threads[t]? = some (.writing writePfn dataPfn)) :
    WriteInv P C F
      { s with
        written := s.written ++ [(writePfn, dataPfn)]
        threads := s.threads.set t .bottom } k := by
  have hsum := sum_map_set hpc WorkerPc.registered .bottom
  have hperm := filterMap_set_perm hpc WorkerPc.pendingRecord .bottom
  simp only [WorkerPc.registered, WorkerPc.pendingRecord, Option.toList_none, Option.toList_some,
    List.append_nil] at hsum hperm
  have hpos := hinv.ioWorkers_pos hpc rfl
  -- the record moves from the thread to the records written
  have hrecords : ((s.written ++ [(writePfn, dataPfn)]) ++
      (s.threads.set t .bottom).filterMap WorkerPc.pendingRecord).Perm
        ((pageset1Records P C F).take k) := by
    rw [List.append_assoc]
    exact ((List.perm_append_comm.trans hperm).append_left _).trans hinv.records
  refine ⟨hinv.taken_le, hinv.ioMap_bits, hinv.ioMap_iter, hinv.pageset1_bits,
    hinv.pageset1_iter, hinv.ioCount_eq, hrecords, ?_, hinv.writing_set (by simp) (by simp),
    hinv.no_bug, fun h => by dsimp only at h; omega⟩
  have := hinv.workers
  dsimp only
  omega

theorem WriteInv.leave (hinv : WriteInv P C F s k) (hpc : s.threads[t]? = some .bottom)
    (hlt : ¬(s.ioWorkers : Int) ≤ s.ioCount) :
    WriteInv P C F
      { s with ioWorkers := s.ioWorkers - 1, threads := s.threads.set t .exited } k := by
  have hsum := sum_map_set hpc WorkerPc.registered .exited
  have hperm := filterMap_set_perm hpc WorkerPc.pendingRecord .exited
  simp only [WorkerPc.registered, WorkerPc.pendingRecord, Option.toList_none,
    List.append_nil] at hsum hperm
  have hpos := hinv.ioWorkers_pos hpc rfl
  have hcount := hinv.ioCount_eq
  have hle := hinv.taken_le
  refine ⟨hle, hinv.ioMap_bits, hinv.ioMap_iter, hinv.pageset1_bits, hinv.pageset1_iter, hcount,
    (hperm.append_left _).trans hinv.records, ?_, hinv.writing_set (by simp) (by simp),
    hinv.no_bug, fun h _ => ?_⟩
  · have := hinv.workers
    dsimp only
    omega
  · dsimp only at h
    omega

variable (hw : p.ioWrite = true) (h1 : p.ioPageset = 1) (hP : F ≤ P.length) (hC : F ≤ C.length)
include hw h1 hP hC

theorem WriteInv.take (hinv : WriteInv P C F s k) (hpc : s.threads[t]? = some pc)
    (hreg : pc.registered = 1) (hrec : pc.pendingRecord = none) (hk : k < F) :
    WriteInv P C F (lockedPart p s t) (k + 1) := by
  have hbits : s.ioMap.bits = C[k] :: (C.take F).drop (k + 1) := by
    rw [hinv.ioMap_bits, List.drop_eq_getElem_cons (by simp; omega), List.getElem_take]
  obtain ⟨hnext, hclear, hiter⟩ := s.ioMap.nextPfn_clear hinv.ioMap_iter hbits
  have hk' : k < s.pageset1Map.bits.length := by rw [hinv.pageset1_bits]; omega
  obtain ⟨hnext1, hiter1⟩ := s.pageset1Map.nextPfn_iterAt hinv.pageset1_iter hk'
  have hPk : s.pageset1Map.bits[k] = P[k] := by simp [hinv.pageset1_bits]
  rw [hPk] at hnext1 hiter1
  have hsum := sum_map_set hpc WorkerPc.registered (.writing (some P[k]) C[k])
  have hperm := filterMap_set_perm hpc WorkerPc.pendingRecord (.writing (some P[k]) C[k])
  rw [hreg] at hsum
  rw [hrec] at hperm
  simp only [WorkerPc.registered, WorkerPc.pendingRecord, Option.toList_none,
    Option.toList_some, List.append_nil] at hsum hperm
  simp only [lockedPart, hw, if_true, hnext, h1, hnext1]
  have hpos := hinv.ioWorkers_pos hpc hreg
  refine ⟨hk, hclear, hiter, hinv.pageset1_bits, hiter1, ?_, ?_, ?_,
    hinv.writing_set (by simp) (by simp), hinv.no_bug, fun h => ?_⟩
  · have := hinv.ioCount_eq
    dsimp only
    omega
  · -- the record taken is the next pair
    rw [pageset1Records_take_succ hk hP hC]
    refine (hperm.append_left _).trans ?_
    rw [← List.append_assoc]
    exact hinv.records.append_right _
  · have := hinv.workers
    dsimp only
    omega
  · dsimp only at h
    omega

omit h1 hP hC in
theorem WriteInv.finish (hinv : WriteInv P C F s k) (hpc : s.threads[t]? = some pc)
    (hreg : pc.registered = 1) (hrec : pc.pendingRecord = none) (hk : ¬k < F) :
    WriteInv P C F (lockedPart p s t) k := by
  have hkF : k = F := by have := hinv.taken_le; omega
  have hempty : s.ioMap.bits = [] := by
    rw [hinv.ioMap_bits, hkF]
    simp
  have hnext := s.ioMap.nextPfn_end (by rw [hempty]; exact hinv.ioMap_iter)
  have hsum := sum_map_set hpc WorkerPc.registered .exited
  have hperm := filterMap_set_perm hpc WorkerPc.pendingRecord .exited
  rw [hreg] at hsum
  rw [hrec] at hperm
  simp only [WorkerPc.registered, WorkerPc.pendingRecord, Option.toList_none,
    List.append_nil] at hsum hperm
  simp only [lockedPart, hw, if_true, hnext]
  have hpos := hinv.ioWorkers_pos hpc hreg
  have hcount : s.ioCount = 0 := by rw [hinv.ioCount_eq, hkF]; simp
  refine ⟨hinv.taken_le, hinv.ioMap_bits, MemoryBitmap.positionReset_iterAt _,
    hinv.pageset1_bits, hinv.pageset1_iter, hinv.ioCount_eq,
    (hperm.append_left _).trans hinv.records, ?_, hinv.writing_set (by simp) (by simp),
    by simp [hinv.no_bug, hcount], fun _ _ => hkF⟩
  have := hinv.workers
  dsimp only
  omega

theorem WriteInv.lockedPart (hinv : WriteInv P C F s k) (hpc : s.threads[t]? = some pc)
    (hreg : pc.registered = 1) (hrec : pc.pendingRecord = none) :
    ∃ k', WriteInv P C F (lockedPart p s t) k' := by
  by_cases hk : k < F
  · exact ⟨k + 1, hinv.take hw h1 hP hC hpc hreg hrec hk⟩
  · exact ⟨k, hinv.finish hw hpc hreg hrec hk⟩

/-- Every step of every thread keeps the invariant. -/
theorem WriteInv.step (hinv : WriteInv P C F s k) {a : IoAction} {s' : IoState}
    (hstep : ioStep p s a = some s') : ∃ k', WriteInv P C F s' k' := by
  cases a with
  | start t =>
    simp only [ioStep] at hstep
    split_ifs at hstep with hpc
    cases hstep
    exact ⟨k, hinv.start hpc⟩
  | enter t =>
    simp only [ioStep] at hstep
    split_ifs at hstep with hpc
    cases hstep
    exact hinv.lockedPart hw h1 hP hC hpc rfl rfl
  | io t =>
    simp only [ioStep] at hstep
    split at hstep
    · cases hstep
      exact ⟨k, hinv.io (by assumption)⟩
    · -- no thread reads in a write pass
      rename_i hpc
      exact absurd rfl (hinv.writing _ (List.mem_of_getElem? hpc)).1
    · cases hstep
  | giveBack t =>
    simp only [ioStep] at hstep
    split_ifs at hstep with hpc
    exact absurd rfl (hinv.writing _ (List.mem_of_getElem? hpc)).2
  | loopTest t =>
    simp only [ioStep] at hstep
    split_ifs at hstep with hpc hcont
    · cases hstep
      exact hinv.lockedPart hw h1 hP hC hpc rfl rfl
    · cases hstep
      exact ⟨k, hinv.leave hpc hcont⟩

end Step

/-- Where `do_rw_loop` stops waiting, `toi_io_workers` back at 0 after a worker left, the records
written are all the pairs. -/
theorem WriteInv.written_of_done {P C : List Nat} {F k : Nat} {s : IoState}
    (hinv : WriteInv P C F s k) (hworkers : s.ioWorkers = 0) (hexit : WorkerPc.exited ∈ s.threads) :
    s.written.Perm (pageset1Records P C F) := by
  have hkF := hinv.done hworkers hexit
  -- no thread is registered, so none holds a record
  have hpending : s.threads.filterMap WorkerPc.pendingRecord = [] := by
    refine List.filterMap_eq_nil_iff.mpr fun pc hmem => ?_
    obtain ⟨i, hi⟩ := List.mem_iff_getElem?.mp hmem
    have hle := le_sum_map hi WorkerPc.registered
    rw [← hinv.workers, hworkers] at hle
    cases pc <;> simp_all [WorkerPc.registered, WorkerPc.pendingRecord]
  have h := hinv.records
  rw [hpending, List.append_nil, hkF] at h
  refine h.trans (List.take_of_length_le ?_ ▸ List.Perm.refl _)
  simp only [pageset1Records, List.length_zip, List.length_map, List.length_take]
  omega

theorem WriteInv.init {P C : List Nat} {F threads : Nat} {ioMap pageset1Map : MemoryBitmap}
    (hbits : ioMap.bits = C.take F) (hiter : ioMap.IterAt 0) (hmap : pageset1Map.bits = P) :
    WriteInv P C F ⟨F, 0, ioMap, pageset1Map.positionReset, [],
      List.replicate threads .idle, [], [], 0, false, false⟩ 0 where
  taken_le := Nat.zero_le F
  ioMap_bits := by simpa using hbits
  ioMap_iter := hiter
  pageset1_bits := hmap
  pageset1_iter := pageset1Map.positionReset_iterAt
  ioCount_eq := by simp
  records := by simp [WorkerPc.pendingRecord]
  workers := by simp [WorkerPc.registered]
  writing := by simp
  no_bug := rfl
  done := by simp

theorem toiCopyPageset1_eq_records {pageset1Map pageset1CopyMap : MemoryBitmap} {size : Nat}
    (hs : size ≤ pageset1Map.bits.length) (hd : size ≤ pageset1CopyMap.bits.length) :
    toiCopyPageset1 pageset1Map pageset1CopyMap size =
      (pageset1Records pageset1Map.bits pageset1CopyMap.bits size).map
        fun r => (r.1, some r.2) := by
  rw [toiCopyPageset1_eq_zip hs hd, pageset1Records, List.map_zip_eq_zipWith,
    List.zip_eq_zipWith, List.zipWith_map_right]
  rfl

/-! ### The write pass ends -/

/-- What a thread has left to do in a write pass, besides taking pfns. -/
def WorkerPc.writeRank : WorkerPc → Nat
  | .idle => 4
  | .entering => 3
  | .writing _ _ => 2
  | .bottom => 1
  | _ => 0

/-- Each pfn left in `io_map` costs a take, a write and a loop test. -/
def writeMeasure (s : IoState) : Nat :=
  3 * s.ioMap.bits.length + (s.threads.map WorkerPc.writeRank).sum

section Measure

variable {p : IoParams} {s s' : IoState} {t : Nat} {pc : WorkerPc}

theorem writeMeasure_lockedPart (hw : p.ioWrite = true) (hpc : s.threads[t]? = some pc)
    (hrank : 1 ≤ pc.writeRank) : writeMeasure (lockedPart p s t) < writeMeasure s := by
  unfold lockedPart
  rw [if_pos hw]
  have hbits := s.ioMap.nextPfn_bits
  rcases hn : s.ioMap.nextPfn with ⟨_ | dataPfn, ioMap⟩
  · -- `BM_END_OF_MAP`: the thread leaves and `io_map` keeps its pfns
    rw [hn] at hbits
    dsimp only at hbits
    have hsum := sum_map_set hpc WorkerPc.writeRank .exited
    have hexit : WorkerPc.writeRank .exited = 0 := rfl
    simp only [writeMeasure, hbits]
    omega
  · -- a pfn taken: one fewer in `io_map`
    rw [hn] at hbits
    dsimp only at hbits
    have hmem : dataPfn ∈ s.ioMap.bits := MemoryBitmap.mem_of_nextPfn (by rw [hn])
    have hlen := List.length_erase_of_mem hmem
    have hpos := List.length_pos_of_mem hmem
    -- the thread goes on to write, whichever pfn it records
    have hsum : ∀ w, ((s.threads.set t (.writing w dataPfn)).map WorkerPc.writeRank).sum +
        pc.writeRank = (s.threads.map WorkerPc.writeRank).sum + 2 :=
      fun w => sum_map_set hpc _ _
    dsimp only
    split
    · have := hsum s.pageset1Map.nextPfn.1
      simp only [writeMeasure, MemoryBitmap.clearBit, hbits, hlen]
      omega
    · have := hsum (some dataPfn)
      simp only [writeMeasure, MemoryBitmap.clearBit, hbits, hlen]
      omega

theorem writeMeasure_step (hw : p.ioWrite = true)
    (hwr : ∀ pc ∈ s.threads, pc ≠ .reading ∧ pc ≠ .unwanted) {a : IoAction}
    (hstep : ioStep p s a = some s') : writeMeasure s' < writeMeasure s := by
  cases a with
  | start t =>
    simp only [ioStep] at hstep
    split_ifs at hstep with hpc
    cases hstep
    have hsum := sum_map_set hpc WorkerPc.writeRank .entering
    simp only [WorkerPc.writeRank] at hsum
    simp only [writeMeasure]
    omega
  | enter t =>
    simp only [ioStep] at hstep
    split_ifs at hstep with hpc
    cases hstep
    exact writeMeasure_lockedPart hw hpc (by decide)
  | io t =>
    simp only [ioStep] at hstep
    split at hstep
    · cases hstep
      have hsum := sum_map_set (by assumption) WorkerPc.writeRank .bottom
      simp only [WorkerPc.writeRank] at hsum
      simp only [writeMeasure]
      omega
    · rename_i hpc
      exact absurd rfl (hwr _ (List.mem_of_getElem? hpc)).1
    · cases hstep
  | giveBack t =>
    simp only [ioStep] at hstep
    split_ifs at hstep with hpc
    exact absurd rfl (hwr _ (List.mem_of_getElem? hpc)).2
  | loopTest t =>
    simp only [ioStep] at hstep
    split_ifs at hstep with hpc hcont
    · cases hstep
      exact writeMeasure_lockedPart hw hpc (by decide)
    · cases hstep
      have hsum := sum_map_set hpc WorkerPc.writeRank .exited
      simp only [WorkerPc.writeRank] at hsum
      simp only [writeMeasure]
      omega

end Measure

section Run

variable {p : IoParams} {P C : List Nat} {F k : Nat} {s s' : IoState}

theorem WriteInv.progress (hinv : WriteInv P C F s k) {t : Nat} {pc : WorkerPc}
    (hpc : s.threads[t]? = some pc) (hne : pc ≠ .exited) : ∃ a s', ioStep p s a = some s' := by
  cases pc with
  | idle => exact ⟨.start t, _, by rw [ioStep, if_pos hpc]⟩
  | entering => exact ⟨.enter t, _, by rw [ioStep, if_pos hpc]⟩
  | writing w d => exact ⟨.io t, _, by rw [ioStep, hpc]⟩
  | reading => exact absurd rfl (hinv.writing _ (List.mem_of_getElem? hpc)).1
  | unwanted => exact absurd rfl (hinv.writing _ (List.mem_of_getElem? hpc)).2
  | bottom =>
    refine ⟨.loopTest t, ?_⟩
    simp only [ioStep, hpc, if_true]
    split_ifs <;> exact ⟨_, rfl⟩
  | exited => exact absurd rfl hne

theorem WriteInv.stuck (hinv : WriteInv P C F s k) (hstuck : ∀ a, ioStep p s a = none) :
    s.ioWorkers = 0 ∧ ∀ pc ∈ s.threads, pc = .exited := by
  have hall : ∀ pc ∈ s.threads, pc = .exited := by
    intro pc hmem
    by_contra hne
    obtain ⟨t, ht⟩ := List.mem_iff_getElem?.mp hmem
    obtain ⟨a, s', h⟩ := hinv.progress (p := p) ht hne
    rw [hstuck a] at h
    cases h
  refine ⟨?_, hall⟩
  rw [hinv.workers, List.eq_replicate_iff.mpr ⟨rfl, hall⟩]
  simp [WorkerPc.registered]

variable (hw : p.ioWrite = true) (h1 : p.ioPageset = 1) (hP : F ≤ P.length) (hC : F ≤ C.length)
include hw h1 hP hC

theorem WriteInv.run_length_le (hinv : WriteInv P C F s k) {as : List IoAction}
    (hrun : as.foldlM (ioStep p) s = some s') : as.length ≤ writeMeasure s := by
  induction as generalizing s k with
  | nil => simp
  | cons a as ih =>
    rw [List.foldlM_cons] at hrun
    obtain ⟨s₁, h₁, hrest⟩ := Option.bind_eq_some_iff.mp hrun
    obtain ⟨k₁, hinv₁⟩ := hinv.step hw h1 hP hC h₁
    have hlen := ih hinv₁ hrest
    have hlt := writeMeasure_step hw hinv.writing h₁
    rw [List.length_cons]
    omega

/-- From a state of the invariant the workers go on to a state where none can take a step. -/
theorem WriteInv.exists_stuck (hinv : WriteInv P C F s k) :
    ∃ s', Reachable (ioStep p) s s' ∧ ∀ a, ioStep p s' a = none := by
  -- every step keeps the invariant and lowers the measure
  refine Reachable.exists_stuck (P := fun s => ∃ k, WriteInv P C F s k) writeMeasure ?_ ⟨k, hinv⟩
  rintro s₁ a s₂ ⟨k₁, hinv₁⟩ hstep
  exact ⟨hinv₁.step hw h1 hP hC hstep, writeMeasure_step hw hinv₁.writing hstep⟩

end Run

theorem writePageset1_inv {pageset1Map pageset1CopyMap : MemoryBitmap} {size : Nat}
    (threads : Nat) (hmap : size ≤ pageset1Map.bits.length)
    (hcopy : size ≤ pageset1CopyMap.bits.length) :
    ∃ s₀, writePageset1 pageset1Map pageset1CopyMap size threads = some s₀ ∧
      s₀.threads.length = threads ∧ WriteInv pageset1Map.bits pageset1CopyMap.bits size s₀ 0 ∧
      writeMeasure s₀ = 3 * size + 4 * threads ∧
      ∀ s, Reachable (ioStep (writePageset1Params size)) s₀ s →
        ∃ k, WriteInv pageset1Map.bits pageset1CopyMap.bits size s k := by
  obtain ⟨ioMap, hbits, hiter, hinit⟩ :=
    @doRwLoopInit_eq (writePageset1Params size) pageset1CopyMap pageset1Map [] threads hcopy
  have hinv₀ := @WriteInv.init pageset1Map.bits pageset1CopyMap.bits size threads ioMap
    pageset1Map hbits hiter rfl
  refine ⟨_, hinit, List.length_replicate, hinv₀, ?_, fun s hs => ?_⟩
  · simp only [writeMeasure, hbits, List.length_take, List.map_replicate]
    simp only [WorkerPc.writeRank, writePageset1Params, List.sum_replicate_nat]
    omega
  · exact hs.invariant (P := fun s => ∃ k, WriteInv pageset1Map.bits pageset1CopyMap.bits size s k)
      ⟨0, hinv₀⟩ fun _ _ _ ⟨_, hk⟩ hstep => hk.step rfl rfl hmap hcopy hstep

/-- In `write_pageset(&pagedir1)`, with any number of workers (the calling thread among them):
every interleaving ends, after at most `3 * pagedir1.size + 4 * threads` steps; no `BUG()`, no copy
pfn written twice and each record written a pair `toi_copy_pageset1` copied, all along the way;
and every state goes on to one where the workers can go no further, where the records written
are exactly those pairs. -/
theorem write_pageset_pairs {pageset1Map pageset1CopyMap : MemoryBitmap} {size : Nat}
    (threads : Nat) (hthreads : 0 < threads) (hmap : size ≤ pageset1Map.bits.length)
    (hcopy : size ≤ pageset1CopyMap.bits.length) :
    ∃ s₀, writePageset1 pageset1Map pageset1CopyMap size threads = some s₀ ∧
      (∀ (as : List IoAction) s, as.foldlM (ioStep (writePageset1Params size)) s₀ = some s →
        as.length ≤ 3 * size + 4 * threads) ∧
      ∀ s, Reachable (ioStep (writePageset1Params size)) s₀ s →
        s.bug = false ∧ (s.written.map Prod.snd).Nodup ∧
        (∀ r ∈ s.written, (r.1, some r.2) ∈ toiCopyPageset1 pageset1Map pageset1CopyMap size) ∧
        (∃ s', Reachable (ioStep (writePageset1Params size)) s s' ∧
          ∀ a, ioStep (writePageset1Params size) s' a = none) ∧
        ((∀ a, ioStep (writePageset1Params size) s a = none) →
          (s.written.map fun r => (r.1, some r.2)).Perm
            (toiCopyPageset1 pageset1Map pageset1CopyMap size)) := by
  obtain ⟨s₀, hinit, hlen₀, hinv₀, hmeasure, hreach⟩ := writePageset1_inv threads hmap hcopy
  refine ⟨s₀, hinit, fun as s hrun => ?_, fun s hs => ?_⟩
  · rw [← hmeasure]
    exact hinv₀.run_length_le rfl rfl hmap hcopy hrun
  obtain ⟨k, hinv⟩ := hreach s hs
  have hcopied := toiCopyPageset1_eq_records hmap hcopy
  -- the records written and being written are the first `k` pairs, whose data pfns are distinct
  have hnodup : ((s.written ++ s.threads.filterMap WorkerPc.pendingRecord).map Prod.snd).Nodup := by
    refine ((hinv.records.map Prod.snd).nodup_iff).mpr ?_
    rw [List.map_take]
    exact (nodup_pageset1Records_data pageset1CopyMap.sorted hmap).sublist (List.take_sublist _ _)
  refine ⟨hinv.no_bug, ?_, fun r hr => ?_, hinv.exists_stuck rfl rfl hmap hcopy, fun hstuck => ?_⟩
  · rw [List.map_append] at hnodup
    exact (List.nodup_append.mp hnodup).1
  · rw [hcopied]
    have hmem := hinv.records.subset (List.mem_append_left _ hr)
    exact List.mem_map_of_mem (List.mem_of_mem_take hmem)
  -- at an end every worker has left; no step adds or removes one, so one has left
  obtain ⟨hworkers, hall⟩ := hinv.stuck hstuck
  have hlen : s.threads.length = threads :=
    hs.invariant (P := fun s => s.threads.length = threads) hlen₀
      fun _ _ _ h hstep => (length_threads_ioStep _ hstep).trans h
  obtain ⟨pc, hpc⟩ := List.exists_mem_of_length_pos (hlen ▸ hthreads)
  have hexit : WorkerPc.exited ∈ s.threads := hall pc hpc ▸ hpc
  rw [hcopied]
  exact (hinv.written_of_done hworkers hexit).map _

/-- Two pages of pageset 1 (pfns 3 and 5) copied to pfns 8 and 9, written by two workers. -/
theorem write_pageset_pairs_two_workers :
    0 < 2 ∧ 2 ≤ (⟨[3, 5], by decide, 0⟩ : MemoryBitmap).bits.length ∧
      2 ≤ (⟨[8, 9], by decide, 0⟩ : MemoryBitmap).bits.length ∧
      ∃ s₀, writePageset1 ⟨[3, 5], by decide, 0⟩ ⟨[8, 9], by decide, 0⟩ 2 2 = some s₀ ∧
        (∀ (as : List IoAction) s, as.foldlM (ioStep (writePageset1Params 2)) s₀ = some s →
          as.length ≤ 3 * 2 + 4 * 2) ∧
        ∀ s, Reachable (ioStep (writePageset1Params 2)) s₀ s →
          s.bug = false ∧ (s.written.map Prod.snd).Nodup ∧
          (∀ r ∈ s.written,
            (r.1, some r.2) ∈ toiCopyPageset1 ⟨[3, 5], by decide, 0⟩ ⟨[8, 9], by decide, 0⟩ 2) ∧
          (∃ s', Reachable (ioStep (writePageset1Params 2)) s s' ∧
            ∀ a, ioStep (writePageset1Params 2) s' a = none) ∧
          ((∀ a, ioStep (writePageset1Params 2) s a = none) →
            (s.written.map fun r => (r.1, some r.2)).Perm
              (toiCopyPageset1 ⟨[3, 5], by decide, 0⟩ ⟨[8, 9], by decide, 0⟩ 2)) :=
  ⟨by decide, by decide, by decide, write_pageset_pairs 2 (by decide) (by decide) (by decide)⟩

/-- Every run of `write_pageset(&pagedir1)` ends, after at most `3 * pagedir1.size + 4 * threads`
steps, and it ends only where every worker has left and `toi_io_workers` is 0, so that
`do_rw_loop` stops waiting. -/
theorem write_pageset_ends {pageset1Map pageset1CopyMap : MemoryBitmap} {size : Nat}
    (threads : Nat) (hmap : size ≤ pageset1Map.bits.length)
    (hcopy : size ≤ pageset1CopyMap.bits.length) :
    ∃ s₀, writePageset1 pageset1Map pageset1CopyMap size threads = some s₀ ∧
      (∀ (as : List IoAction) s, as.foldlM (ioStep (writePageset1Params size)) s₀ = some s →
        as.length ≤ 3 * size + 4 * threads) ∧
      ∀ s, Reachable (ioStep (writePageset1Params size)) s₀ s →
        (∀ a, ioStep (writePageset1Params size) s a = none) →
          s.ioWorkers = 0 ∧ ∀ pc ∈ s.threads, pc = .exited := by
  obtain ⟨s₀, hinit, -, hinv₀, hmeasure, hreach⟩ := writePageset1_inv threads hmap hcopy
  refine ⟨s₀, hinit, fun as s hrun => ?_, fun s hs hstuck => ?_⟩
  · rw [← hmeasure]
    exact hinv₀.run_length_le rfl rfl hmap hcopy hrun
  · obtain ⟨k, hinv⟩ := hreach s hs
    exact hinv.stuck hstuck

/-- Two workers writing two pages of pageset 1: at most 14 steps. -/
theorem write_pageset_ends_two_workers :
    2 ≤ (⟨[3, 5], by decide, 0⟩ : MemoryBitmap).bits.length ∧
      2 ≤ (⟨[8, 9], by decide, 0⟩ : MemoryBitmap).bits.length ∧
      ∃ s₀, writePageset1 ⟨[3, 5], by decide, 0⟩ ⟨[8, 9], by decide, 0⟩ 2 2 = some s₀ ∧
        (∀ (as : List IoAction) s, as.foldlM (ioStep (writePageset1Params 2)) s₀ = some s →
          as.length ≤ 3 * 2 + 4 * 2) ∧
        ∀ s, Reachable (ioStep (writePageset1Params 2)) s₀ s →
          (∀ a, ioStep (writePageset1Params 2) s a = none) →
            s.ioWorkers = 0 ∧ ∀ pc ∈ s.threads, pc = .exited :=
  ⟨by decide, by decide, write_pageset_ends 2 (by decide) (by decide)⟩

end TuxOnIceFastboot.Io
