import TuxOnIceFastboot.BlockIO.Tape

/-!
# Streams on the tape

A stream of the image (0 header, 1 pageset 1, 2 pageset 2) is read or written by
`toi_rw_init`, calls of `toi_bio_rw_page`, and `toi_rw_cleanup`. On the tape, each call of
`toi_bio_rw_page` moves one page on and does its I/O there, unless the section barrier stops
it: the position is the one saved in the slot `compare_to` of the stream, and the call reads
(`-ENODATA`) or writes the header (`-EIO`, through `debug_broken_header`).

`rwPages_free` runs the calls that the barrier lets through, `rwPages_read_barrier` and
`rwPage_write_barrier` the calls it stops; the position is saved and restored exactly
(`restore_of_save`), so a stream restarts where the one before it ended.
-/

namespace TuxOnIceFastboot.BlockIO

open TuxOnIceFastboot.Extent

variable (chains : List HibernateExtentChain) (devinfo : Nat → ToiBdevInfo)

/-- `n` calls of `toi_bio_rw_page`, with their results. -/
def rwPages (writing : Bool) : Nat → BioState → BioState × List Int
  | 0, s => (s, [])
  | n + 1, s =>
    let r := toiBioRwPage chains devinfo writing s
    let rest := rwPages writing n r.1
    (rest.1, r.2 :: rest.2)

/-- The I/O requests of tape pages `k + 1, …, k + n`. -/
def tapeRequests (writing : Bool) (k n : Nat) : List IoRequest :=
  (List.range n).map fun j =>
    ⟨writing, (tapePosn chains devinfo (k + j + 1)).currentChain,
      (tapePosn chains devinfo (k + j + 1)).currentOffset⟩

/-- Writing a stream of `n` pages: `toi_rw_init`, `n` calls of `toi_bio_rw_page`, and
`toi_rw_cleanup`; the results of the page writes. -/
def writeStream (pageSize : Nat) (stream : Int) (n : Nat) (s : BioState) :
    Option (BioState × List Int) := do
  let (s1, _) ← toiRwInit chains pageSize true true stream s
  let (s2, rs) := rwPages chains devinfo true n s1
  let (s3, _) ← toiRwCleanup chains devinfo true s2
  pure (s3, rs)

/-- Reading `m` pages of a stream: `toi_rw_init` and `m` calls of `toi_bio_rw_page`. -/
def readStream (pageSize : Nat) (stream : Int) (m : Nat) (s : BioState) :
    Option (BioState × List Int) := do
  let (s1, _) ← toiRwInit chains pageSize true false stream s
  pure (rwPages chains devinfo false m s1)

/-- Reading stream `stream` from `s` visits tape pages `p + 1, …, p + n` and then returns
`-ENODATA`, however many pages are asked for. -/
def StreamReads (pageSize : Nat) (stream : Int) (p n : Nat) (s : BioState) : Prop :=
  ∀ m, (readStream chains devinfo pageSize stream m s).map (fun r => (r.2, r.1.ioLog)) =
    some (List.replicate (min m n) 0 ++ List.replicate (m - n) (-ENODATA),
      s.ioLog ++ tapeRequests chains devinfo false p (min m n))

/-- The section barrier stops `go_next_page` at `st`: it is the position that ends the
stream, and the call reads, or writes the header. -/
def BarrierStops (writing : Bool) (s : BioState) (st : ToiExtentIterateState) : Prop :=
  st.currentChain = (s.toiWriterPosnSave (compareTo s.currentStream)).chainNum ∧
  st.currentOffset = (s.toiWriterPosnSave (compareTo s.currentStream)).offset ∧
  (writing → s.currentStream = 0)

/-- Slot `k` holds the saved form of tape page `p`. -/
def SlotHolds (s : BioState) (k : Fin 4) (p : Nat) : Prop :=
  toiExtentStateSave chains (tapePosn chains devinfo p) = some (s.toiWriterPosnSave k)

section Saved

variable {chains}

theorem save_key {st : ToiExtentIterateState} {x : HibernateExtentIterateSavedState}
    (h : toiExtentStateSave chains st = some x) :
    x.chainNum = st.currentChain ∧ x.offset = st.currentOffset := by
  unfold toiExtentStateSave at h
  split_ifs at h with h1 h2
  · cases h; exact ⟨h1.symm, rfl⟩
  · split at h
    · cases h
    · split at h
      · cases h; exact ⟨rfl, rfl⟩
      · split_ifs at h
        cases h; exact ⟨rfl, rfl⟩

theorem restore_of_save {st : ToiExtentIterateState} {x : HibernateExtentIterateSavedState}
    (hv : Valid chains st) (hne : st.currentChain ≠ chains.length)
    (h : toiExtentStateSave chains st = some x) : toiExtentStateRestore chains x = some st := by
  obtain ⟨saved, hs, hr, -, -⟩ := restore_save hv hne
  rw [hs] at h
  cases h
  exact hr

end Saved

section Runs

variable {chains} {devinfo}

theorem goNextPage_free {writing sectionBarrier : Bool} {s : BioState} {k : Nat}
    (hpos : s.toiWriterPosn = tapePosn chains devinfo k) (hx : s.extraPageForward = false)
    (hfree : ¬ (sectionBarrier ∧ BarrierStops writing s s.toiWriterPosn)) :
    goNextPage chains devinfo writing sectionBarrier s =
      ({ s with toiWriterPosn := tapePosn chains devinfo (k + 1) },
        if (tapePosn chains devinfo (k + 1)).currentChain = chains.length then -ENODATA
        else 0) := by
  have hstep : stepBlocks chains (blocksToStep devinfo s.toiWriterPosn.currentChain)
      s.toiWriterPosn = tapePosn chains devinfo (k + 1) := by
    rw [tapePosn_succ, ← hpos]; rfl
  have hnb : ¬ ((sectionBarrier ∧ s.toiWriterPosn.currentChain =
      (s.toiWriterPosnSave (compareTo s.currentStream)).chainNum ∧
      s.toiWriterPosn.currentOffset = (s.toiWriterPosnSave (compareTo s.currentStream)).offset) ∧
      writing ∧ s.currentStream = 0) := by
    rintro ⟨⟨hb, hc, ho⟩, hw, hs0⟩
    exact hfree ⟨hb, hc, ho, fun _ => hs0⟩
  have hnr : ¬ ((sectionBarrier ∧ s.toiWriterPosn.currentChain =
      (s.toiWriterPosnSave (compareTo s.currentStream)).chainNum ∧
      s.toiWriterPosn.currentOffset = (s.toiWriterPosnSave (compareTo s.currentStream)).offset) ∧
      ¬ writing) := by
    rintro ⟨⟨hb, hc, ho⟩, hw⟩
    exact hfree ⟨hb, hc, ho, fun h => absurd h hw⟩
  unfold goNextPage goNextPageOnce
  simp only [hnb, hnr, if_false, hstep, toiExtentStateEof_iff, hx]
  split_ifs <;> simp_all

theorem goNextPage_write_barrier {s : BioState} (hst : BarrierStops true s s.toiWriterPosn) :
    goNextPage chains devinfo true true s = ({ s with aborted := true }, - EIO) := by
  obtain ⟨hc, ho, hs0⟩ := hst
  have hs0 := hs0 rfl
  simp [goNextPage, goNextPageOnce, hc, ho, hs0, EIO]

theorem goNextPage_read_barrier {s : BioState} (hst : BarrierStops false s s.toiWriterPosn) :
    goNextPage chains devinfo false true s = ({ s with moreReadahead := false }, -ENODATA) := by
  obtain ⟨hc, ho, -⟩ := hst
  simp [goNextPage, goNextPageOnce, hc, ho, ENODATA]

theorem tapeRequests_succ (writing : Bool) (k n : Nat) :
    tapeRequests chains devinfo writing k (n + 1) =
      ⟨writing, (tapePosn chains devinfo (k + 1)).currentChain,
        (tapePosn chains devinfo (k + 1)).currentOffset⟩ ::
      tapeRequests chains devinfo writing (k + 1) n := by
  unfold tapeRequests
  rw [List.range_succ_eq_map, List.map_cons, List.map_map]
  congr 1
  apply List.map_congr_left
  intro j _
  simp only [Function.comp]
  rw [show k + (j + 1) + 1 = k + 1 + j + 1 by omega]

theorem tapeRequests_keys (writing : Bool) (k n : Nat) :
    (tapeRequests chains devinfo writing k n).map (fun r => (r.chain, r.offset)) =
      (List.range' (k + 1) n).map fun j =>
        ((tapePosn chains devinfo j).currentChain, (tapePosn chains devinfo j).currentOffset) := by
  rw [List.range'_eq_map_range, List.map_map, tapeRequests, List.map_map]
  apply List.map_congr_left
  intro j _
  simp only [Function.comp_apply, show k + 1 + j = k + j + 1 by omega]

theorem writeStream_of {pageSize : Nat} {stream : Int} {n : Nat} {s s1 s2 s3 : BioState}
    {rs : List Int} {r1 r3 : Int} (h1 : toiRwInit chains pageSize true true stream s = some (s1, r1))
    (h2 : rwPages chains devinfo true n s1 = (s2, rs))
    (h3 : toiRwCleanup chains devinfo true s2 = some (s3, r3)) :
    writeStream chains devinfo pageSize stream n s = some (s3, rs) := by
  simp only [writeStream, h1, Option.bind_eq_bind, Option.bind_some, h2, h3, Option.pure_def]

theorem readStream_of {pageSize : Nat} {stream : Int} {m : Nat} {s s1 : BioState} {r1 : Int}
    (h1 : toiRwInit chains pageSize true false stream s = some (s1, r1)) :
    readStream chains devinfo pageSize stream m s = some (rwPages chains devinfo false m s1) := by
  simp only [readStream, h1, Option.bind_eq_bind, Option.bind_some, Option.pure_def]

theorem rwPages_add (writing : Bool) (a b : Nat) (s : BioState) :
    rwPages chains devinfo writing (a + b) s =
      ((rwPages chains devinfo writing b (rwPages chains devinfo writing a s).1).1,
        (rwPages chains devinfo writing a s).2 ++
          (rwPages chains devinfo writing b (rwPages chains devinfo writing a s).1).2) := by
  induction a generalizing s with
  | zero => simp [rwPages]
  | succ a ih =>
    rw [show a + 1 + b = (a + b) + 1 by omega]
    simp only [rwPages, ih, List.cons_append]

theorem toiBioRwPage_free {writing : Bool} {s : BioState} {k : Nat}
    (hpos : s.toiWriterPosn = tapePosn chains devinfo k) (hx : s.extraPageForward = false)
    (hfree : ¬ BarrierStops writing s s.toiWriterPosn)
    (hne : (tapePosn chains devinfo (k + 1)).currentChain ≠ chains.length) :
    toiBioRwPage chains devinfo writing s =
      ({ s with
          toiWriterPosn := tapePosn chains devinfo (k + 1)
          ioLog := s.ioLog ++ [⟨writing, (tapePosn chains devinfo (k + 1)).currentChain,
            (tapePosn chains devinfo (k + 1)).currentOffset⟩] }, 0) := by
  have h := @goNextPage_free chains devinfo writing true s k hpos hx (fun h => hfree h.2)
  simp only [toiBioRwPage, h, hne, if_false, ne_eq, not_true_eq_false]

/-- A run of page I/O that the barrier never stops and that stays short of the end: `n` pages of
the tape, in order. -/
theorem rwPages_free {writing : Bool} :
    ∀ (n : Nat) {s : BioState} {k : Nat}, s.toiWriterPosn = tapePosn chains devinfo k →
      s.extraPageForward = false →
      (∀ j < n, ¬ BarrierStops writing s (tapePosn chains devinfo (k + j))) →
      (tapePosn chains devinfo (k + n)).currentChain ≠ chains.length →
      rwPages chains devinfo writing n s =
        ({ s with
            toiWriterPosn := tapePosn chains devinfo (k + n)
            ioLog := s.ioLog ++ tapeRequests chains devinfo writing k n },
          List.replicate n 0)
  | 0, s, k, hpos, _, _, _ => by
    cases s
    simp_all [rwPages, tapeRequests]
  | n + 1, s, k, hpos, hx, hfree, hne => by
    have hne1 : (tapePosn chains devinfo (k + 1)).currentChain ≠ chains.length :=
      fun h => hne (tapePosn_eof_of_le (by omega) h)
    have hstep := toiBioRwPage_free hpos hx (by rw [hpos]; simpa using hfree 0 (by omega)) hne1
    have ih := rwPages_free n (s := { s with
        toiWriterPosn := tapePosn chains devinfo (k + 1)
        ioLog := s.ioLog ++ [⟨writing, (tapePosn chains devinfo (k + 1)).currentChain,
          (tapePosn chains devinfo (k + 1)).currentOffset⟩] }) (k := k + 1) rfl hx
      (fun j hj => by
        have := hfree (j + 1) (by omega)
        rwa [show k + (j + 1) = k + 1 + j by omega] at this)
      (by rwa [show k + 1 + n = k + (n + 1) by omega])
    simp only [rwPages, hstep, ih, tapeRequests_succ, List.append_assoc, List.singleton_append,
      List.replicate_succ, show k + 1 + n = k + (n + 1) by omega]

theorem toiBioRwPage_write_barrier {s : BioState} (hst : BarrierStops true s s.toiWriterPosn) :
    toiBioRwPage chains devinfo true s = ({ s with aborted := true }, - EIO) := by
  simp [toiBioRwPage, goNextPage_write_barrier hst, EIO]

/-- Reads stopped by the barrier return `-ENODATA`, and stay where they are. -/
theorem rwPages_read_barrier :
    ∀ (m : Nat) {s : BioState}, BarrierStops false s s.toiWriterPosn →
      (rwPages chains devinfo false m s).2 = List.replicate m (-ENODATA) ∧
      (rwPages chains devinfo false m s).1.toiWriterPosn = s.toiWriterPosn ∧
      (rwPages chains devinfo false m s).1.ioLog = s.ioLog
  | 0, s, _ => by simp [rwPages]
  | m + 1, s, hst => by
    have h := @goNextPage_read_barrier chains devinfo s hst
    have hr : toiBioRwPage chains devinfo false s = ({ s with moreReadahead := false }, -ENODATA) := by
      simp [toiBioRwPage, h, ENODATA]
    obtain ⟨h1, h2, h3⟩ := rwPages_read_barrier m (s := { s with moreReadahead := false }) hst
    simp only [rwPages, hr, h1, h2, h3, List.replicate_succ, and_self]

theorem rwPages_read_stream {s : BioState} {k n : Nat} (m : Nat)
    (hpos : s.toiWriterPosn = tapePosn chains devinfo k) (hx : s.extraPageForward = false)
    (hslot : SlotHolds chains devinfo s (compareTo s.currentStream) (k + n))
    (hwf : ∀ ch ∈ chains, ch.Wf) (hbpp : PagesAdvance chains devinfo)
    (hne : (tapePosn chains devinfo (k + n)).currentChain ≠ chains.length) :
    (rwPages chains devinfo false m s).2 =
        List.replicate (min m n) 0 ++ List.replicate (m - n) (-ENODATA) ∧
      (rwPages chains devinfo false m s).1.ioLog =
        s.ioLog ++ tapeRequests chains devinfo false k (min m n) := by
  obtain ⟨hc, ho⟩ := save_key hslot
  -- before page `k + n` the barrier does not stop: the positions differ
  have hfree : ∀ j, j < n → ¬ BarrierStops false s (tapePosn chains devinfo (k + j)) := by
    rintro j hj ⟨hjc, hjo, -⟩
    have hjne : (tapePosn chains devinfo (k + j)).currentChain ≠ chains.length :=
      fun h => hne (tapePosn_eof_of_le (by omega) h)
    have := tapePosn_key_inj hwf hbpp hjne hne (by
      simp only [posKey, hjc, hjo, hc, ho])
    omega
  rcases Nat.lt_or_ge m n with hmn | hmn
  · have hmne : (tapePosn chains devinfo (k + m)).currentChain ≠ chains.length :=
      fun h => hne (tapePosn_eof_of_le (by omega) h)
    rw [rwPages_free m hpos hx (fun j hj => hfree j (by omega)) hmne]
    simp [Nat.min_eq_left (Nat.le_of_lt hmn), Nat.sub_eq_zero_of_le (Nat.le_of_lt hmn)]
  · obtain ⟨m', rfl⟩ : ∃ m', m = n + m' := ⟨m - n, by omega⟩
    rw [rwPages_add, rwPages_free n hpos hx hfree hne]
    obtain ⟨h1, -, h3⟩ := @rwPages_read_barrier chains devinfo m'
      ({ s with
        toiWriterPosn := tapePosn chains devinfo (k + n)
        ioLog := s.ioLog ++ tapeRequests chains devinfo false k n }) ⟨hc.symm, ho.symm, by simp⟩
    simp only [h1, h3, Nat.min_eq_right (Nat.le_add_right n m'), Nat.add_sub_cancel_left,
      and_self]

end Runs

end TuxOnIceFastboot.BlockIO
