import TuxOnIceFastboot.Extent.Iterate

/-!
# Positioning the block I/O (`tuxonice_block_io.c`)

The image is written on the blocks of the allocator's chains, one page at a time. The
static state of `tuxonice_block_io.c` that decides where each page goes is `BioState`:
the iterator `toi_writer_posn`, the four saved positions `toi_writer_posn_save`
(0 header, 1 pageset 1 = end of pageset 2, 2 pageset 2 = end of the header reservation,
3 end of pageset 1), the stream being read or written, and the `extra_page_forward` flag.

`go_next_page` moves the iterator one page on (one block from the start, `blocks_per_page`
blocks afterwards), after checking the *section barrier*: the saved position that ends the
current stream. `toi_bio_rw_page` does I/O at the position it reaches; the requests are
recorded in `ioLog`. `toi_rw_init` and `toi_rw_cleanup` start a stream at its saved position
and save where a stream ended; `applyHeaderReservation` (identical in the swap and file
allocators) moves past the header pages and saves the start of pageset 2.

Functions that may read outside the array of chains through `toi_extent_state_save` or
`toi_extent_state_restore` return an `Option`, `none` for such a read.
-/

namespace TuxOnIceFastboot.BlockIO

open TuxOnIceFastboot.Extent

/-- `struct toi_bdev_info`; `bdev` names the opened block device. -/
structure ToiBdevInfo where
  bdev : Nat
  devT : Nat
  bmapShift : Int
  blocksPerPage : Int
  ignored : Int
  deriving DecidableEq, Repr

/-- A request passed to `toi_do_io`: reading or writing the page at block `offset` of the
device of chain `chain`. -/
structure IoRequest where
  writing : Bool
  chain : Int
  offset : Nat
  deriving DecidableEq, Repr

/-- The state of `tuxonice_block_io.c` that places pages on the chains. `aborted` is the
`TOI_ABORTED` result bit that `abort_hibernate` sets. -/
structure BioState where
  toiWriterPosn : ToiExtentIterateState
  toiWriterPosnSave : Fin 4 → HibernateExtentIterateSavedState
  currentStream : Int
  extraPageForward : Bool
  moreReadahead : Bool
  toiWriterBufferPosn : Nat
  aborted : Bool
  ioLog : List IoRequest

/-- A state at boot: the iterator at the start, nothing saved, nothing written. -/
def bootBioState : BioState :=
  ⟨toiExtentStateGotoStart, fun _ => ⟨0, 0, 0⟩, 0, false, false, 0, false, []⟩

section Positioning

variable (chains : List HibernateExtentChain) (devinfo : Nat → ToiBdevInfo)

/-- The saved position that ends the current stream (`compare_to` in `go_next_page`). -/
def compareTo (stream : Int) : Fin 4 :=
  match stream with
  | 0 => 2
  | 1 => 3
  | 2 => 1
  | _ => 0

/-- The number of blocks one page spans from a chain (`max` in `go_next_page`). -/
def blocksToStep (chainNum : Int) : Nat :=
  if chainNum = -1 then 1 else (devinfo chainNum.toNat).blocksPerPage.toNat

/-- `n` calls of `toi_extent_state_next`. -/
def stepBlocks (n : Nat) (st : ToiExtentIterateState) : ToiExtentIterateState :=
  (fun st => (toiExtentStateNext chains st).1)^[n] st

/-- `go_next_page` up to its recursive call: the section barrier, the step and the check for
the end of the chains. -/
def goNextPageOnce (writing sectionBarrier : Bool) (s : BioState) : BioState × Int :=
  let chainNum := s.toiWriterPosn.currentChain
  let saved := s.toiWriterPosnSave (compareTo s.currentStream)
  -- "Have we already used the last page of the stream?"
  let atBarrier := sectionBarrier ∧ chainNum = saved.chainNum ∧
    s.toiWriterPosn.currentOffset = saved.offset
  if atBarrier ∧ writing ∧ s.currentStream = 0 then
    -- `debug_broken_header`: `abort_hibernate(TOI_HEADER_TOO_BIG, ...)`
    ({ s with aborted := true }, - EIO)
  else if atBarrier ∧ ¬ writing then
    ({ s with moreReadahead := false }, -ENODATA)
  else
    let posn := stepBlocks chains (blocksToStep devinfo chainNum) s.toiWriterPosn
    let s' := { s with toiWriterPosn := posn }
    if toiExtentStateEof chains posn then (s', -ENODATA) else (s', 0)

/-- `go_next_page`: with `extra_page_forward` set, a successful move is followed by a second
one, with the flag cleared. -/
def goNextPage (writing sectionBarrier : Bool) (s : BioState) : BioState × Int :=
  let r := goNextPageOnce chains devinfo writing sectionBarrier s
  if r.2 = 0 ∧ r.1.extraPageForward then
    goNextPageOnce chains devinfo writing sectionBarrier { r.1 with extraPageForward := false }
  else r

/-- `set_extra_page_forward`. -/
def setExtraPageForward (s : BioState) : BioState := { s with extraPageForward := true }

/-- `toi_bio_rw_page`: move to the next page, and submit the I/O there. -/
def toiBioRwPage (writing : Bool) (s : BioState) : BioState × Int :=
  let r := goNextPage chains devinfo writing true s
  if r.2 ≠ 0 then r
  else
    ({ r.1 with ioLog := r.1.ioLog ++
        [⟨writing, r.1.toiWriterPosn.currentChain, r.1.toiWriterPosn.currentOffset⟩] }, 0)

/-- `toi_rw_init`. `bufferOk` is whether the page for `toi_writer_buffer` was allocated. -/
def toiRwInit (pageSize : Nat) (bufferOk writing : Bool) (streamNumber : Int) (s : BioState) :
    Option (BioState × Int) := do
  let posn ← if streamNumber = 0 then pure toiExtentStateGotoStart
    -- `toi_writer_posn_save[stream_number]`, outside the array for other streams
    else if h : 0 < streamNumber ∧ streamNumber < 4 then
      toiExtentStateRestore chains (s.toiWriterPosnSave ⟨streamNumber.toNat, by omega⟩)
    else none
  let s' := { s with
    toiWriterPosn := posn
    toiWriterBufferPosn := if writing then 0 else pageSize
    currentStream := streamNumber
    moreReadahead := true }
  pure (s', if bufferOk then 0 else -ENOMEM)

/-- Save the iterator's position in slot `k`. -/
def savePosn (k : Fin 4) (s : BioState) : Option BioState := do
  let saved ← toiExtentStateSave chains s.toiWriterPosn
  pure { s with toiWriterPosnSave := Function.update s.toiWriterPosnSave k saved }

/-- `toi_rw_cleanup`. When writing, a partly filled buffer is queued and flushed, that is
written by one more `toi_bio_rw_page`, and the end of pageset 2 or pageset 1 is saved. -/
def toiRwCleanup (writing : Bool) (s : BioState) : Option (BioState × Int) := do
  let (s, result) ← if writing then do
      let r := if s.toiWriterBufferPosn ≠ 0 ∧ ¬ s.aborted then
          toiBioRwPage chains devinfo true s
        else (s, 0)
      if r.2 ≠ 0 then pure (r.1, some r.2)
      else if r.1.currentStream = 2 then pure (← savePosn chains 1 r.1, none)
      else if r.1.currentStream = 1 then pure (← savePosn chains 3 r.1, none)
      else pure (r.1, none)
    else pure (s, none)
  match result with
  | some err => pure (s, err)
  | none => pure ({ s with currentStream := 0 }, 0)

/-- The loop of `apply_header_reservation`: `n` calls of `forward_one_page(1, 0)`, stopping at
the first that fails. -/
def forwardPages : Nat → BioState → BioState × Int
  | 0, s => (s, 0)
  | n + 1, s =>
    let r := goNextPage chains devinfo true false s
    if r.2 = 0 then forwardPages n r.1 else r

/-- `apply_header_reservation` of the swap and file allocators: from the start of the chains,
move past `headerPagesReserved` pages and save the position as the start of pageset 2. -/
def applyHeaderReservation (headerPagesReserved : Int) (s : BioState) :
    Option (BioState × Int) := do
  let r := forwardPages chains devinfo headerPagesReserved.toNat
    { s with toiWriterPosn := toiExtentStateGotoStart }
  if r.2 ≠ 0 then pure (r.1, -ENOSPC)
  else pure (← savePosn chains 2 r.1, 0)

/-- `toi_rw_cleanup` after a write of pageset 2 that ended at the end of the chains, with no
page left to queue (none was begun, or the write was aborted when the storage ran out): the
end position is saved into slot 1. -/
theorem toiRwCleanup_eof {s : BioState} (hposn : s.toiWriterPosn.currentChain = chains.length)
    (hstream : s.currentStream = 2) (hidle : s.toiWriterBufferPosn = 0 ∨ s.aborted = true) :
    toiRwCleanup chains devinfo true s = none := by
  -- either way the partly filled buffer is not queued, and the save is all that is left
  rcases hidle with h | h <;> simp [toiRwCleanup, h, hstream, savePosn, save_of_eof hposn]

/-- Saved positions carry over to chains rebuilt with the same extents, and the walk goes on
the same from the restored state; but the walk over any chains ends at `current_chain ==
num_chains`, where `toi_extent_state_save` reads `chains[num_chains].first`, past the array,
and `toi_rw_cleanup` saves exactly that position after a write of pageset 2 that ran out of
storage. -/
theorem extent_state_save_past_last_chain (hwf : ∀ ch ∈ chains, ch.Wf) :
    (∀ st, Valid chains st → st.currentChain ≠ chains.length →
      ∀ chains', SameExtents chains chains' →
        ∃ saved, toiExtentStateSave chains st = some saved ∧
          toiExtentStateRestore chains' saved = some st ∧
          ∀ n, nextValues chains' n st = nextValues chains n st) ∧
    (∃ v, (fun st => (toiExtentStateNext chains st).1)^[(chains.map HibernateExtentChain.blocks).sum + 1]
        toiExtentStateGotoStart = ⟨chains.length, none, v⟩ ∧
      toiExtentStateSave chains ⟨chains.length, none, v⟩ = none) ∧
    ∀ s : BioState, s.toiWriterPosn.currentChain = chains.length → s.currentStream = 2 →
      (s.toiWriterBufferPosn = 0 ∨ s.aborted = true) → toiRwCleanup chains devinfo true s = none := by
  refine ⟨?_, ?_, fun s hposn hstream hidle => toiRwCleanup_eof chains devinfo hposn hstream hidle⟩
  · intro st hv hne chains' hsame
    obtain ⟨saved, hs, hr, -, -⟩ := restore_save hv hne
    exact ⟨saved, hs, (hsame.restore_eq saved).trans hr, fun n => hsame.nextValues_eq n st⟩
  · obtain ⟨v, hv⟩ := gotoStart_reaches_eof hwf
    exact ⟨v, hv, save_of_eof rfl⟩

end Positioning

/-- One chain of one block, block `5`. -/
def oneBlockChain : List HibernateExtentChain := [⟨1, 1, [⟨5, 5⟩], none⟩]

theorem extent_state_save_past_last_chain_one_block :
    (∀ ch ∈ oneBlockChain, ch.Wf) ∧
      ∃ v, (fun st => (toiExtentStateNext oneBlockChain st).1)^[2] toiExtentStateGotoStart =
          ⟨1, none, v⟩ ∧ toiExtentStateSave oneBlockChain ⟨1, none, v⟩ = none := by
  have hwf : ∀ ch ∈ oneBlockChain, ch.Wf := by decide
  exact ⟨hwf, (extent_state_save_past_last_chain oneBlockChain (fun _ => ⟨0, 0, 0, 1, 0⟩) hwf).2.1⟩

end TuxOnIceFastboot.BlockIO
