import TuxOnIceFastboot.Io.Worker
import TuxOnIceFastboot.Lib.Threads

/-!
# Reading a pageset

`read_pageset` runs `do_rw_loop` reading: `io_map` holds the first `finish_at` pfns of the
pageset's bitmap and `io_count = finish_at`. Each iteration of a worker, its first included,
takes a claim (`io_count--`) and reads the next record of the stream; a record whose pfn is in
`io_map` is loaded and cleared, one that is not gives its claim back, and one marked Resave is
dropped, its claim with it. A worker goes on while `io_count >= toi_io_workers`.

Nothing bounds the claims by the records: a worker takes its first claim without a test, so
with more workers than `finish_at` the count goes below 0 and a worker reads past the end of
the stream (`read_pageset_overrun`), and a Resave record keeps its claim, so that when its pfn is
in `io_map` the loop ends with the bit still set and the check at the end of `do_rw_loop`
fires. With at most `finish_at` workers, all counted in `toi_io_workers` before the first claim,
and no Resave record in the stream, the accounting holds: `ReadInv` says that `io_count` and the
claims held make up the pfns left in `io_map`, each of which is still ahead in the stream
(`read_pageset_accounting`).
-/

namespace TuxOnIceFastboot.Io

open TuxOnIceFastboot.Lib TuxOnIceFastboot.Snapshot

/-- `do_rw_loop` as `read_pageset(pagedir, ...)` calls it: reading pageset `pagedir`, `finish_at`
pages. -/
def readPagesetParams (pagedir finishAt : Nat) (resave : Nat → Bool) : IoParams :=
  ⟨false, pagedir, finishAt, resave⟩

/-- The start of `do_rw_loop` in `read_pageset`, `pageflags` being `pageset1_map` or
`pageset2_map` and `stream` the pfns of the pageset's records. -/
def readPageset (pagedir : Nat) (pageflags pageset1Map : MemoryBitmap) (finishAt : Nat)
    (resave : Nat → Bool) (stream : List Nat) (threads : Nat) : Option IoState :=
  doRwLoopInit (readPagesetParams pagedir finishAt resave) pageflags pageset1Map stream threads

/-! ### Two runs -/

/-- Two workers read one page of pageset 2, pfn 5; and one worker reads pfn 5 marked Resave.
In the first run `io_count` goes to `-1` and the second worker reads past the end of the
stream; in the second every worker leaves with pfn 5 still set in `io_map`. -/
theorem read_pageset_overrun :
    (∃ s₀, readPageset 2 ⟨[5], by decide, 0⟩ MemoryBitmap.empty 1 (fun _ => false) [5] 2 =
        some s₀ ∧
      ∃ s s', Reachable (ioStep (readPagesetParams 2 1 fun _ => false)) s₀ s ∧ s.ioCount = -1 ∧
        Reachable (ioStep (readPagesetParams 2 1 fun _ => false)) s s' ∧ s'.reads = 2 ∧
        s'.failed = true) ∧
    (∃ s₀, readPageset 2 ⟨[5], by decide, 0⟩ MemoryBitmap.empty 1 (fun pfn => pfn == 5) [5] 1 =
        some s₀ ∧
      ∃ s, Reachable (ioStep (readPagesetParams 2 1 fun pfn => pfn == 5)) s₀ s ∧
        s.ioWorkers = 0 ∧ s.threads = [.exited] ∧ s.loaded = [] ∧ doRwLoopEndCheck s = true) := by
  -- both workers take a claim before either reads
  refine ⟨⟨_, rfl, _, _, (((Reachable.init.step (IoAction.start 0) rfl).step (IoAction.start 1)
    rfl).step (IoAction.enter 0) rfl).step (IoAction.enter 1) rfl, rfl,
    (Reachable.init.step (IoAction.io 0) rfl).step (IoAction.io 1) rfl, rfl, rfl⟩, ?_⟩
  -- the Resave record takes the only claim
  exact ⟨_, rfl, _, (((Reachable.init.step (IoAction.start 0) rfl).step (IoAction.enter 0)
    rfl).step (IoAction.io 0) rfl).step (IoAction.loopTest 0) rfl, rfl, rfl, rfl, rfl⟩

/-! ### The accounting of claims -/

/-- A thread waiting for its first claim. -/
def WorkerPc.waitsToEnter : WorkerPc → Nat
  | .entering => 1
  | _ => 0

/-- A thread holding a claim: about to read, or to give back an unwanted record. -/
def WorkerPc.claim : WorkerPc → Nat
  | .reading | .unwanted => 1
  | _ => 0

/-- A thread waiting for the loop test. -/
def WorkerPc.atBottom : WorkerPc → Nat
  | .bottom => 1
  | _ => 0

/-- The places of a thread in a read pass once every worker is counted in `toi_io_workers`. -/
def WorkerPc.inReadPass : WorkerPc → Bool
  | .idle | .writing _ _ => false
  | _ => true

/-- The invariant of a read pass over the stream `S`, `B` being the pfns first set in
`io_map`. -/
structure ReadInv (B S : List Nat) (s : IoState) : Prop where
  in_pass : ∀ pc ∈ s.threads, pc.inReadPass = true
  workers : s.ioWorkers = (s.threads.map WorkerPc.waitsToEnter).sum +
    (s.threads.map WorkerPc.claim).sum + (s.threads.map WorkerPc.atBottom).sum
  /-- Each worker still to enter has a claim waiting for it. -/
  entering_le : ((s.threads.map WorkerPc.waitsToEnter).sum : Int) ≤ s.ioCount
  /-- The claims left and those held make up the pfns left in `io_map`. -/
  claims : s.ioCount + (s.threads.map WorkerPc.claim).sum = s.ioMap.bits.length
  suffix : s.stream <:+ S
  reads_eq : s.reads + s.stream.length = S.length
  /-- Each pfn left in `io_map` has its record still ahead. -/
  ioMap_sub : ∀ x ∈ s.ioMap.bits, x ∈ s.stream
  loaded_perm : (s.loaded ++ s.ioMap.bits).Perm B
  not_failed : s.failed = false
  done : s.ioWorkers = 0 → s.ioMap.bits = []

section Step

variable {p : IoParams} {B S : List Nat} {s : IoState} {t : Nat} {pc : WorkerPc}

theorem ReadInv.inReadPass_set (hinv : ReadInv B S s) {b : WorkerPc} (hb : b.inReadPass = true) :
    ∀ pc ∈ s.threads.set t b, pc.inReadPass = true := by
  intro pc hmem
  rcases List.mem_or_eq_of_mem_set hmem with hmem | rfl
  · exact hinv.in_pass pc hmem
  · exact hb

theorem counts_set (hpc : s.threads[t]? = some pc) (b : WorkerPc) :
    ((s.threads.set t b).map WorkerPc.waitsToEnter).sum + pc.waitsToEnter =
        (s.threads.map WorkerPc.waitsToEnter).sum + b.waitsToEnter ∧
      ((s.threads.set t b).map WorkerPc.claim).sum + pc.claim =
        (s.threads.map WorkerPc.claim).sum + b.claim ∧
      ((s.threads.set t b).map WorkerPc.atBottom).sum + pc.atBottom =
        (s.threads.map WorkerPc.atBottom).sum + b.atBottom :=
  ⟨sum_map_set hpc _ b, sum_map_set hpc _ b, sum_map_set hpc _ b⟩

theorem ReadInv.take (hinv : ReadInv B S s) (hr : p.ioWrite = false)
    (hpc : s.threads[t]? = some pc) (hpc' : pc = .entering ∨ pc = .bottom)
    (hroom : ((s.threads.map WorkerPc.waitsToEnter).sum : Int) + 1 ≤ s.ioCount + pc.waitsToEnter) :
    ReadInv B S (lockedPart p s t) := by
  obtain ⟨he, hc, hb⟩ := counts_set hpc .reading
  have hw := hinv.workers
  have hcl := hinv.claims
  simp only [lockedPart, hr, Bool.false_eq_true, if_false]
  refine ⟨hinv.inReadPass_set rfl, ?workers, ?entering, ?claims, hinv.suffix, hinv.reads_eq,
    hinv.ioMap_sub, hinv.loaded_perm, hinv.not_failed, fun h => hinv.done ?done⟩
  -- the thread trades its place, entering or at the loop test, for a claim
  all_goals
    rcases hpc' with rfl | rfl <;>
    simp only [WorkerPc.waitsToEnter, WorkerPc.claim, WorkerPc.atBottom] at he hc hb hroom ⊢ <;>
    omega

theorem ReadInv.giveBack (hinv : ReadInv B S s) (hpc : s.threads[t]? = some .unwanted) :
    ReadInv B S { s with ioCount := s.ioCount + 1, threads := s.threads.set t .bottom } := by
  obtain ⟨he, hc, hb⟩ := counts_set hpc .bottom
  simp only [WorkerPc.waitsToEnter, WorkerPc.claim, WorkerPc.atBottom] at he hc hb
  have hw := hinv.workers
  have hcl := hinv.claims
  have hge := hinv.entering_le
  refine ⟨hinv.inReadPass_set rfl, ?_, ?_, ?_, hinv.suffix, hinv.reads_eq, hinv.ioMap_sub,
    hinv.loaded_perm, hinv.not_failed, fun h => hinv.done (by dsimp only at h; omega)⟩
  all_goals dsimp only; omega

theorem ReadInv.leave (hinv : ReadInv B S s) (hpc : s.threads[t]? = some .bottom)
    (hlt : ¬(s.ioWorkers : Int) ≤ s.ioCount) :
    ReadInv B S { s with ioWorkers := s.ioWorkers - 1, threads := s.threads.set t .exited } := by
  obtain ⟨he, hc, hb⟩ := counts_set hpc .exited
  simp only [WorkerPc.waitsToEnter, WorkerPc.claim, WorkerPc.atBottom] at he hc hb
  have hbottom := le_sum_map hpc WorkerPc.atBottom
  simp only [WorkerPc.atBottom] at hbottom
  have hw := hinv.workers
  have hcl := hinv.claims
  have hge := hinv.entering_le
  refine ⟨hinv.inReadPass_set rfl, ?_, ?_, ?_, hinv.suffix, hinv.reads_eq, hinv.ioMap_sub,
    hinv.loaded_perm, hinv.not_failed, fun h => ?_⟩
  · dsimp only
    omega
  · dsimp only
    omega
  · dsimp only
    omega
  · -- the last worker: no one to enter, no claim held, and `io_count` at 0
    dsimp only at h ⊢
    exact List.length_eq_zero_iff.mp (by omega)

variable (hres : ∀ x ∈ S, p.resave x = false)
include hres

/-- A read: the thread holds a claim, so a pfn is left in `io_map` and its record is ahead. -/
theorem ReadInv.read (hinv : ReadInv B S s) (hpc : s.threads[t]? = some .reading) :
    ReadInv B S (readPage p s t) := by
  have hcl := hinv.claims
  have hw := hinv.workers
  have hge := hinv.entering_le
  have hclaim := le_sum_map hpc WorkerPc.claim
  simp only [WorkerPc.claim] at hclaim
  -- the claim held and `io_count >= 0` leave a pfn in `io_map`, so the stream is not empty
  obtain ⟨x, rest, hst⟩ : ∃ x rest, s.stream = x :: rest := by
    have hpos : 0 < s.ioMap.bits.length := by omega
    obtain ⟨y, hy⟩ := List.exists_mem_of_length_pos hpos
    cases hs : s.stream with
    | nil => exact absurd (hinv.ioMap_sub y hy) (by simp [hs])
    | cons x rest => exact ⟨x, rest, rfl⟩
  have hsuffix : rest <:+ S := (List.suffix_cons x rest).trans (hst ▸ hinv.suffix)
  have hx : p.resave x = false := hres x (hinv.suffix.subset (by simp [hst]))
  have hnodup : s.ioMap.bits.Nodup := s.ioMap.sorted.imp Nat.ne_of_lt
  have hreads := hinv.reads_eq
  rw [hst, List.length_cons] at hreads
  unfold readPage
  rw [hst]
  simp only [hx, Bool.false_eq_true, if_false]
  split
  · -- a pfn of `io_map`: loaded, and its bit cleared
    rename_i hbit
    have hmem : x ∈ s.ioMap.bits := by simpa [MemoryBitmap.testBit] using hbit
    obtain ⟨he, hc, hb⟩ := counts_set hpc .bottom
    simp only [WorkerPc.waitsToEnter, WorkerPc.claim, WorkerPc.atBottom] at he hc hb
    have hlen := List.length_erase_of_mem hmem
    refine ⟨hinv.inReadPass_set rfl, ?workers, ?entering, ?claims, hsuffix, ?reads,
      fun y hy => ?sub, ?perm, hinv.not_failed, fun h => ?done⟩
    case sub =>
      have hy' := (hnodup.mem_erase_iff).mp hy
      have := hinv.ioMap_sub y hy'.2
      rw [hst] at this
      exact (List.mem_cons.mp this).resolve_left hy'.1
    case perm =>
      simp only [MemoryBitmap.clearBit, List.append_assoc, List.singleton_append]
      exact ((List.perm_cons_erase hmem).symm.append_left _).trans hinv.loaded_perm
    case claims =>
      simp only [MemoryBitmap.clearBit]
      omega
    all_goals dsimp only at *; omega
  · -- a record not wanted: its claim is to be given back
    rename_i hbit
    have hmem : x ∉ s.ioMap.bits := by simpa [MemoryBitmap.testBit] using hbit
    obtain ⟨he, hc, hb⟩ := counts_set hpc .unwanted
    simp only [WorkerPc.waitsToEnter, WorkerPc.claim, WorkerPc.atBottom] at he hc hb
    refine ⟨hinv.inReadPass_set rfl, ?_, ?_, ?_, hsuffix, ?_, fun y hy => ?keep,
      hinv.loaded_perm, hinv.not_failed, fun h => ?_⟩
    case keep =>
      have := hinv.ioMap_sub y hy
      rw [hst] at this
      exact (List.mem_cons.mp this).resolve_left fun hyx => hmem (hyx ▸ hy)
    all_goals dsimp only at *; omega

omit hres in
theorem ReadInv.not_inReadPass (hinv : ReadInv B S s) (hpc : s.threads[t]? = some pc)
    (hpass : pc.inReadPass = false) : False := by
  have := hinv.in_pass pc (List.mem_of_getElem? hpc)
  rw [hpass] at this
  cases this

/-- Every step of every worker keeps the invariant. -/
theorem ReadInv.step (hr : p.ioWrite = false) (hinv : ReadInv B S s) {a : IoAction}
    {s' : IoState} (hstep : ioStep p s a = some s') : ReadInv B S s' := by
  cases a with
  | start t =>
    simp only [ioStep] at hstep
    split_ifs at hstep with hpc
    exact (hinv.not_inReadPass hpc rfl).elim
  | enter t =>
    simp only [ioStep] at hstep
    split_ifs at hstep with hpc
    cases hstep
    have hge := hinv.entering_le
    exact hinv.take hr hpc (Or.inl rfl) (by simp only [WorkerPc.waitsToEnter]; omega)
  | io t =>
    simp only [ioStep] at hstep
    split at hstep
    · rename_i hpc
      exact (hinv.not_inReadPass hpc rfl).elim
    · cases hstep
      exact hinv.read hres (by assumption)
    · cases hstep
  | giveBack t =>
    simp only [ioStep] at hstep
    split_ifs at hstep with hpc
    cases hstep
    exact hinv.giveBack hpc
  | loopTest t =>
    simp only [ioStep] at hstep
    split_ifs at hstep with hpc hcont
    · -- `io_count >= toi_io_workers`, and this worker is one of them
      cases hstep
      have hbottom := le_sum_map hpc WorkerPc.atBottom
      simp only [WorkerPc.atBottom] at hbottom
      have hw := hinv.workers
      exact hinv.take hr hpc (Or.inr rfl) (by simp only [WorkerPc.waitsToEnter]; omega)
    · cases hstep
      exact hinv.leave hpc hcont

end Step

theorem start_run {p : IoParams} {s : IoState} {k n : Nat}
    (hs : s.threads = List.replicate k .entering ++ List.replicate n .idle) :
    ((List.range' k n).map IoAction.start).foldlM (ioStep p) s =
      some { s with ioWorkers := s.ioWorkers + n, threads := List.replicate (k + n) .entering } := by
  induction n generalizing k s with
  | zero =>
    rw [List.replicate_zero, List.append_nil] at hs
    rw [Nat.add_zero, Nat.add_zero, ← hs]
    rfl
  | succ n ih =>
    have hk : s.threads[k]? = some .idle := by
      rw [hs, List.getElem?_append_right (by simp)]
      simp
    have hset : s.threads.set k .entering =
        List.replicate (k + 1) .entering ++ List.replicate n .idle := by
      rw [hs, List.set_append_right _ _ (by simp), List.length_replicate, Nat.sub_self,
        List.replicate_succ, List.set_cons_zero, List.replicate_succ', List.append_assoc]
      rfl
    rw [List.range'_succ, List.map_cons, List.foldlM_cons, ioStep, if_pos hk]
    simp only [Option.bind_eq_bind, Option.bind_some]
    rw [ih hset]
    simp only [Nat.add_assoc, Nat.add_comm 1 n]

theorem ReadInv.init {B S : List Nat} {F w : Nat} {ioMap pageset1Map : MemoryBitmap}
    (hbits : ioMap.bits = B) (hlen : B.length = F) (hw : w ≤ F) (hw₁ : 1 ≤ w)
    (hin : ∀ x ∈ B, x ∈ S) :
    ReadInv B S ⟨F, w, ioMap, pageset1Map, S, List.replicate w .entering, [], [], 0, false,
      false⟩ where
  in_pass := by simp [WorkerPc.inReadPass]
  workers := by
    simp only [List.map_replicate, WorkerPc.waitsToEnter, WorkerPc.claim, WorkerPc.atBottom,
      List.sum_replicate_nat]
    omega
  entering_le := by
    simp only [List.map_replicate, WorkerPc.waitsToEnter, List.sum_replicate_nat]
    omega
  claims := by
    simp only [List.map_replicate, WorkerPc.claim, List.sum_replicate_nat, hbits, hlen]
    omega
  suffix := List.suffix_refl S
  reads_eq := Nat.zero_add _
  ioMap_sub := hbits ▸ hin
  loaded_perm := by simp [hbits]
  not_failed := rfl
  done := fun h => by dsimp only at h; omega

/-- In `read_pageset`, with between 1 and `finish_at` workers all counted in `toi_io_workers`
before the first claim, a stream that holds every pfn of `io_map` and no record marked Resave:
on every interleaving, `io_count` stays at or above 0, no read goes past the end of the stream,
each pfn of `io_map` is loaded at most once, and where `do_rw_loop` stops waiting every one
has been loaded and the check at its end passes. -/
theorem read_pageset_accounting {pageflags pageset1Map : MemoryBitmap}
    {finishAt threads : Nat} {resave : Nat → Bool} {stream : List Nat} (pagedir : Nat)
    (hthreads : 1 ≤ threads) (hroom : threads ≤ finishAt)
    (hF : finishAt ≤ pageflags.bits.length) (hin : ∀ x ∈ pageflags.bits.take finishAt, x ∈ stream)
    (hres : ∀ x ∈ stream, resave x = false) :
    ∃ s₀ s₁, readPageset pagedir pageflags pageset1Map finishAt resave stream threads = some s₀ ∧
      ((List.range threads).map IoAction.start).foldlM
        (ioStep (readPagesetParams pagedir finishAt resave)) s₀ = some s₁ ∧
      ∀ s, Reachable (ioStep (readPagesetParams pagedir finishAt resave)) s₁ s →
        0 ≤ s.ioCount ∧ s.failed = false ∧ s.reads ≤ stream.length ∧ s.loaded.Nodup ∧
        (s.loaded ++ s.ioMap.bits).Perm (pageflags.bits.take finishAt) ∧
        (s.ioWorkers = 0 →
          doRwLoopEndCheck s = false ∧ s.loaded.Perm (pageflags.bits.take finishAt)) := by
  obtain ⟨ioMap, hbits, -, hinit⟩ := @doRwLoopInit_eq (readPagesetParams pagedir finishAt resave)
    pageflags pageset1Map stream threads hF
  have hlen : (pageflags.bits.take finishAt).length = finishAt := by simp; omega
  have hinv₁ := @ReadInv.init _ stream finishAt (0 + threads) ioMap pageset1Map.positionReset
    hbits hlen (by omega) (by omega) hin
  refine ⟨_, _, hinit, by rw [List.range_eq_range']; exact start_run (by simp), fun s hs => ?_⟩
  have hinv := hs.invariant (P := ReadInv (pageflags.bits.take finishAt) stream) hinv₁
    fun _ _ _ h hstep => h.step hres rfl hstep
  -- the pfns first set in `io_map` are distinct
  have hnodup : (pageflags.bits.take finishAt).Nodup :=
    ((pageflags.sorted.sublist (List.take_sublist _ _)).imp Nat.ne_of_lt)
  have hge := hinv.entering_le
  have hreads := hinv.reads_eq
  refine ⟨by omega, hinv.not_failed, by omega,
    (List.nodup_append.mp (hinv.loaded_perm.nodup_iff.mpr hnodup)).1, hinv.loaded_perm,
    fun h => ?_⟩
  have hempty := hinv.done h
  refine ⟨by simp [doRwLoopEndCheck, hempty], ?_⟩
  simpa [hempty] using hinv.loaded_perm

/-- Two workers reading pfns 3 and 5 from the stream 5, 7, 3, with pfn 7 not wanted. -/
theorem read_pageset_accounting_two_workers :
    1 ≤ 2 ∧ 2 ≤ 2 ∧ 2 ≤ (⟨[3, 5], by decide, 0⟩ : MemoryBitmap).bits.length ∧
      (∀ x ∈ (⟨[3, 5], by decide, 0⟩ : MemoryBitmap).bits.take 2, x ∈ [5, 7, 3]) ∧
      (∀ x ∈ [5, 7, 3], (fun _ => false) x = false) ∧
      ∃ s₀ s₁, readPageset 2 ⟨[3, 5], by decide, 0⟩ MemoryBitmap.empty 2 (fun _ => false)
          [5, 7, 3] 2 = some s₀ ∧
        ((List.range 2).map IoAction.start).foldlM
          (ioStep (readPagesetParams 2 2 fun _ => false)) s₀ = some s₁ ∧
        ∀ s, Reachable (ioStep (readPagesetParams 2 2 fun _ => false)) s₁ s →
          0 ≤ s.ioCount ∧ s.failed = false ∧ s.reads ≤ [5, 7, 3].length ∧ s.loaded.Nodup ∧
          (s.loaded ++ s.ioMap.bits).Perm ((⟨[3, 5], by decide, 0⟩ : MemoryBitmap).bits.take 2) ∧
          (s.ioWorkers = 0 → doRwLoopEndCheck s = false ∧
            s.loaded.Perm ((⟨[3, 5], by decide, 0⟩ : MemoryBitmap).bits.take 2)) :=
  ⟨by decide, by decide, by decide, by decide, by decide,
    read_pageset_accounting 2 (by decide) (by decide) (by decide) (by decide) (by decide)⟩

end TuxOnIceFastboot.Io
