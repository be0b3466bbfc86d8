import TuxOnIceFastboot.Snapshot.Bitmap
import TuxOnIceFastboot.Lib.Run

/-!
# The I/O loop (`tuxonice_io.c`)

`do_rw_loop` sets in `io_map` the first `finish_at` pfns of a pageset's bitmap, sets
`io_count = finish_at`, and runs `worker_rw_loop` in several threads. Each iteration of a
thread takes `io_mutex`; writing, it takes the next pfn of `io_map`, clears it, decrements
`io_count` and, for pageset 1, takes the next pfn of `pageset1_map` as the pfn to record;
reading, it decrements `io_count` (a claim on one record). Without the mutex it then writes or
reads one record. A read record whose pfn is in `io_map` is loaded and cleared; one that is
not gives its claim back (`io_count++`, under the mutex); one marked Resave is dropped. The
thread then takes the mutex again and goes on while `io_count >= toi_io_workers`.

The threads are the caller, unless it runs the allocator's flusher, and one thread that
`start_other_threads` binds to each other online CPU; the caller is bound to a CPU too, so no two
threads share one (`nodup_workerCpus`).

The shared state is `IoState`, each thread's place in the loop a `WorkerPc`, and each action
one step of one thread that the mutex, or the thread's own data, makes atomic; every sequence of
actions is an interleaving (`ioStep`). A record's I/O is one step: what it does outside the
mutex touches only the thread's own pfn. The stream being read is the list of the pfns of its
records. Three fields are history: the records written, the pfns loaded, and the count of
`read_page` calls; `bug` and `failed` record a `BUG()` and the `panic` after a failed read.
I/O errors, aborts, the progress display and `TOI_STOP_RESUME` are left out.
-/

namespace TuxOnIceFastboot.Io

open TuxOnIceFastboot.Lib TuxOnIceFastboot.Snapshot

/-- Where a thread is in `worker_rw_loop`. -/
inductive WorkerPc where
  /-- Not yet in `worker_rw_loop`. -/
  | idle
  /-- Counted in `toi_io_workers`, waiting for `io_mutex` before the first iteration. -/
  | entering
  /-- Writing: `write_page(writePfn, page of dataPfn)` to do (`none` is `BM_END_OF_MAP`). -/
  | writing (writePfn : Option Nat) (dataPfn : Nat)
  /-- Reading: a claim taken, `read_page` to do. -/
  | reading
  /-- Reading: the record read was not wanted, its claim to give back. -/
  | unwanted
  /-- An iteration done, waiting for `io_mutex` for the loop test. -/
  | bottom
  /-- Out of the loop. -/
  | exited
  deriving DecidableEq, Repr

/-- What one `do_rw_loop` is given: `io_write`, `io_pageset`, `io_finish_at`, and which pfns are
marked Resave. -/
structure IoParams where
  ioWrite : Bool
  ioPageset : Nat
  ioFinishAt : Nat
  resave : Nat → Bool

/-- The shared state of the loop. -/
structure IoState where
  ioCount : Int
  ioWorkers : Nat
  ioMap : MemoryBitmap
  pageset1Map : MemoryBitmap
  stream : List Nat
  threads : List WorkerPc
  written : List (Option Nat × Nat)
  loaded : List Nat
  reads : Nat
  bug : Bool
  failed : Bool

/-- One step of thread `t`. -/
inductive IoAction where
  /-- `atomic_inc(&toi_io_workers)` on entering `worker_rw_loop`. -/
  | start (t : Nat)
  /-- `mutex_lock(&io_mutex)` and the locked part of the first iteration. -/
  | enter (t : Nat)
  /-- `write_page` or `read_page`, and what follows it up to the loop test. -/
  | io (t : Nat)
  /-- An unwanted record: `io_count++` under the mutex. -/
  | giveBack (t : Nat)
  /-- `mutex_lock(&io_mutex)`, the loop test, and the locked part of the next iteration. -/
  | loopTest (t : Nat)
  deriving DecidableEq, Repr

variable (p : IoParams)

/-- The locked part of an iteration of thread `t`: writing, the next pfn of `io_map` (or the
`break` at `BM_END_OF_MAP`, a `BUG()` if `io_count` is not 0); reading, a claim. -/
def lockedPart (s : IoState) (t : Nat) : IoState :=
  if p.ioWrite then
    match s.ioMap.nextPfn with
    | (none, ioMap) =>
      -- "Ran out of pfns but io_count is still %d."
      { s with
        ioMap := ioMap
        bug := s.bug || decide (s.ioCount ≠ 0)
        ioWorkers := s.ioWorkers - 1
        threads := s.threads.set t .exited }
    | (some dataPfn, ioMap) =>
      let (writePfn, pageset1Map) :=
        if p.ioPageset = 1 then s.pageset1Map.nextPfn else (some dataPfn, s.pageset1Map)
      { s with
        ioCount := s.ioCount - 1
        ioMap := ioMap.clearBit dataPfn
        pageset1Map := pageset1Map
        threads := s.threads.set t (.writing writePfn dataPfn) }
  else { s with ioCount := s.ioCount - 1, threads := s.threads.set t .reading }

/-- `read_page` by thread `t` and what it does with the record. -/
def readPage (s : IoState) (t : Nat) : IoState :=
  match s.stream with
  | [] =>
    -- past the end of the stream: panic("Read chunk returned (%d)")
    { s with reads := s.reads + 1, failed := true, threads := s.threads.set t .exited }
  | pfn :: rest =>
    if p.resave pfn then
      { s with reads := s.reads + 1, stream := rest, threads := s.threads.set t .bottom }
    else if s.ioMap.testBit pfn then
      { s with
        reads := s.reads + 1
        stream := rest
        loaded := s.loaded ++ [pfn]
        ioMap := s.ioMap.clearBit pfn
        threads := s.threads.set t .bottom }
    else { s with reads := s.reads + 1, stream := rest, threads := s.threads.set t .unwanted }

/-- One step of the loop, `none` where thread `t` cannot take it. -/
def ioStep (s : IoState) : IoAction → Option IoState
  | .start t =>
    if s.threads[t]? = some .idle then
      some { s with ioWorkers := s.ioWorkers + 1, threads := s.threads.set t .entering }
    else none
  | .enter t => if s.threads[t]? = some .entering then some (lockedPart p s t) else none
  | .io t =>
    match s.threads[t]? with
    | some (.writing writePfn dataPfn) =>
      some { s with
        written := s.written ++ [(writePfn, dataPfn)]
        threads := s.threads.set t .bottom }
    | some .reading => some (readPage p s t)
    | _ => none
  | .giveBack t =>
    if s.threads[t]? = some .unwanted then
      some { s with ioCount := s.ioCount + 1, threads := s.threads.set t .bottom }
    else none
  | .loopTest t =>
    if s.threads[t]? = some .bottom then
      if (s.ioWorkers : Int) ≤ s.ioCount then some (lockedPart p s t)
      else some { s with ioWorkers := s.ioWorkers - 1, threads := s.threads.set t .exited }
    else none

/-- The loop of `do_rw_loop` that sets in `io_map` the pfns `pageflags` gives, up to `n` of them;
it returns how many it did not find (`finish_at - index`) and `io_map`. -/
def seedIoMap : Nat → MemoryBitmap → MemoryBitmap → Nat × MemoryBitmap
  | 0, _, ioMap => (0, ioMap)
  | n + 1, pageflags, ioMap =>
    match pageflags.nextPfn with
    | (none, _) => (n + 1, ioMap)
    | (some pfn, pageflags) => seedIoMap n pageflags (ioMap.setBit pfn)

/-- The state in which `do_rw_loop` starts the workers, `none` for `BUG_ON(index < finish_at)`.
`threads` threads run `worker_rw_loop`, the stream being read holds the records `stream`. -/
def doRwLoopInit (pageflags pageset1Map : MemoryBitmap) (stream : List Nat) (threads : Nat) :
    Option IoState :=
  match seedIoMap p.ioFinishAt pageflags.positionReset MemoryBitmap.empty with
  | (0, ioMap) =>
    some ⟨p.ioFinishAt, 0, ioMap.positionReset, pageset1Map.positionReset, stream,
      List.replicate threads .idle, [], [], 0, false, false⟩
  | _ => none

/-- The check at the end of `do_rw_loop`: "I/O bitmap still records work to do", `BUG()`. -/
def doRwLoopEndCheck (s : IoState) : Bool := !s.ioMap.bits.isEmpty

/-- Whether a thread is counted in `toi_io_workers`: from its `atomic_inc` to its exit. -/
def WorkerPc.registered : WorkerPc → Nat
  | .idle | .exited => 0
  | _ => 1

/-- `start_other_threads`, called on CPU `self`: a `ktoi_io` thread bound to each other online CPU
where `kthread_create` succeeds; the CPUs of the threads started. -/
def startOtherThreads (online : List Nat) (self : Nat) (created : Nat → Bool) : List Nat :=
  online.filter fun cpu => cpu != self && created cpu

/-- The CPUs of the threads of `do_rw_loop` that run `worker_rw_loop`, one per thread, the caller
running on `self`: those `start_other_threads` started, unless `TOI_NO_MULTITHREADED_IO`, and the
caller, unless it runs the allocator's `io_flusher` instead (`flusher`: there is one and
`TOI_NO_FLUSHER_THREAD` is clear). -/
def workerCpus (online : List Nat) (self : Nat) (multithreaded : Bool) (created : Nat → Bool)
    (flusher : Bool) : List Nat :=
  let others := if multithreaded then startOtherThreads online self created else []
  if others.isEmpty || !flusher then others ++ [self] else others

/-- The CPU of the worker of index `t`. -/
def workerCpu (cpus : List Nat) (t : Nat) : Nat := cpus.getD t 0

/-- Where the threads of `do_rw_loop` run: the online CPUs, each once; the CPU `self` that
`toi_start_anything` bound the caller to (`first_cpu(cpu_online_map)`), where it stays until
`toi_finish_anything`; whether `TOI_NO_MULTITHREADED_IO` is clear; the CPUs for which
`kthread_create` succeeds; and whether the caller runs the allocator's `io_flusher`. -/
structure RwLoopCpus where
  online : List Nat
  nodup_online : online.Nodup
  self : Nat
  multithreaded : Bool
  created : Nat → Bool
  flusher : Bool

/-- The CPUs of the workers, one per thread. -/
def RwLoopCpus.cpus (u : RwLoopCpus) : List Nat :=
  workerCpus u.online u.self u.multithreaded u.created u.flusher

/-! ### The start of the loop -/

theorem seedIoMap_take {n k : Nat} {pageflags ioMap : MemoryBitmap} (h : pageflags.IterAt k)
    (hb : ioMap.bits = pageflags.bits.take k) (hn : k + n ≤ pageflags.bits.length) :
    (seedIoMap n pageflags ioMap).1 = 0 ∧
      (seedIoMap n pageflags ioMap).2.bits = pageflags.bits.take (k + n) := by
  induction n generalizing k pageflags ioMap with
  | zero => simp [seedIoMap, hb]
  | succ n ih =>
    have hk : k < pageflags.bits.length := by omega
    obtain ⟨hnext, hiter⟩ := pageflags.nextPfn_iterAt h hk
    -- the pfn set now lies above those set before, so it goes at the end
    have hset : (ioMap.setBit pageflags.bits[k]).bits = pageflags.bits.take (k + 1) := by
      show insertPfn pageflags.bits[k] ioMap.bits = _
      rw [hb, insertPfn_of_lt fun q hq => MemoryBitmap.lt_getElem_of_mem_take hk hq,
        List.take_add_one, List.getElem?_eq_getElem hk]
      rfl
    simp only [seedIoMap, hnext]
    rw [show k + (n + 1) = k + 1 + n by omega]
    exact ih hiter hset (by simpa using by omega)

theorem doRwLoopInit_eq {pageflags pageset1Map : MemoryBitmap} (stream : List Nat)
    (threads : Nat) (h : p.ioFinishAt ≤ pageflags.bits.length) :
    ∃ ioMap : MemoryBitmap, ioMap.bits = pageflags.bits.take p.ioFinishAt ∧ ioMap.IterAt 0 ∧
      doRwLoopInit p pageflags pageset1Map stream threads =
        some ⟨p.ioFinishAt, 0, ioMap, pageset1Map.positionReset, stream,
          List.replicate threads .idle, [], [], 0, false, false⟩ := by
  obtain ⟨hleft, hbits⟩ := @seedIoMap_take p.ioFinishAt 0 pageflags.positionReset
    MemoryBitmap.empty pageflags.positionReset_iterAt rfl (by simpa using h)
  refine ⟨(seedIoMap p.ioFinishAt pageflags.positionReset MemoryBitmap.empty).2.positionReset,
    by simpa using hbits, MemoryBitmap.positionReset_iterAt _, ?_⟩
  unfold doRwLoopInit
  rw [show seedIoMap p.ioFinishAt pageflags.positionReset MemoryBitmap.empty =
    (0, (seedIoMap p.ioFinishAt pageflags.positionReset MemoryBitmap.empty).2) from
    Prod.ext hleft rfl]
  rfl

/-! ### The threads -/

@[simp] theorem length_threads_lockedPart (s : IoState) (t : Nat) :
    (lockedPart p s t).threads.length = s.threads.length := by
  unfold lockedPart
  split
  · split <;> simp
  · simp

@[simp] theorem length_threads_readPage (s : IoState) (t : Nat) :
    (readPage p s t).threads.length = s.threads.length := by
  unfold readPage
  split
  · simp
  · split_ifs <;> simp

theorem length_threads_ioStep {s s' : IoState} {a : IoAction} (h : ioStep p s a = some s') :
    s'.threads.length = s.threads.length := by
  cases a with
  | io t =>
    simp only [ioStep] at h
    split at h
    · cases h
      simp
    · cases h
      simp
    · cases h
  | _ t =>
    simp only [ioStep] at h
    split_ifs at h <;> cases h <;> simp

theorem nodup_startOtherThreads {online : List Nat} (honline : online.Nodup) (self : Nat)
    (created : Nat → Bool) :
    (startOtherThreads online self created).Nodup ∧ self ∉ startOtherThreads online self created :=
  ⟨honline.filter _, by simp [startOtherThreads]⟩

/-- No two workers share a CPU: `start_other_threads` skips the caller's CPU and binds one thread
to each other online CPU. -/
theorem nodup_workerCpus {online : List Nat} (honline : online.Nodup) (self : Nat)
    (multithreaded : Bool) (created : Nat → Bool) (flusher : Bool) :
    (workerCpus online self multithreaded created flusher).Nodup := by
  -- the caller's CPU is not among the others, whichever threads were started
  have hcaller : ∀ others : List Nat, others.Nodup → self ∉ others →
      (if others.isEmpty || !flusher then others ++ [self] else others).Nodup := by
    intro others hn hs
    split
    · exact List.nodup_append_comm.mpr (List.nodup_cons.mpr ⟨hs, hn⟩)
    · exact hn
  obtain ⟨hnodup, hself⟩ := nodup_startOtherThreads honline self created
  unfold workerCpus
  split
  · exact hcaller _ hnodup hself
  · exact hcaller [] List.nodup_nil List.not_mem_nil

theorem injOn_workerCpu {cpus : List Nat} (h : cpus.Nodup) :
    Set.InjOn (workerCpu cpus) {t | t < cpus.length} := by
  intro t ht t' ht' heq
  simp only [workerCpu, List.getD_eq_getElem _ _ ht, List.getD_eq_getElem _ _ ht'] at heq
  exact h.getElem_inj_iff.mp heq

theorem RwLoopCpus.injOn_workerCpu (u : RwLoopCpus) :
    Set.InjOn (workerCpu u.cpus) {t | t < u.cpus.length} :=
  Io.injOn_workerCpu (nodup_workerCpus u.nodup_online u.self u.multithreaded u.created u.flusher)

end TuxOnIceFastboot.Io
