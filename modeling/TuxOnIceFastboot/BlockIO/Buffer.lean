import TuxOnIceFastboot.Base
import TuxOnIceFastboot.Lib.Bytes

/-!
# Packing records into pages (`toi_rw_buffer`)

The image is a stream of records `[pfn | buf_size | data]` that `toi_rw_buffer` packs into
`PAGE_SIZE` pages, whatever the records' sizes: a record may end anywhere in a page and
run on into the next ones. The writer fills `toi_writer_buffer` from position 0 and queues a
page only when a later byte does not fit (a page that ends exactly at a record stays until the
next write, or until `toi_rw_cleanup`); the reader starts at position `PAGE_SIZE`, so that its
first read fetches a page.

`WriteBuffer` and `ReadBuffer` are the two directions' state. The bytes of a page, of the
queue and of the readahead list are the block device's pages; which blocks they go to is
`BioState`'s business (`BlockIO.State`), whose `toiWriterBufferPosn` is the `posn` here.
Writing never fails in the model (the allocation of a new page is retried until it succeeds,
and the flush of the queue is not modelled); reading fails when the readahead pages run out.

Each direction refines a byte stream, its `view`: writing appends to the view of the writer
(`rwBufferWrite_view`) and reading takes from the front of the view of the reader
(`rwBufferRead_view`). The records `toi_bio_write_page` and `toi_bio_read_page` make of
these are `pageRecord`s (`toiBioWritePage_view`, `toiBioReadPage_record`).
-/

namespace TuxOnIceFastboot.BlockIO

open TuxOnIceFastboot.Lib

/-- The writer's side of `toi_rw_buffer`: the page being filled (`toi_writer_buffer`), how
much of it is used (`toi_writer_buffer_posn`) and the pages `toi_bio_queue_write` has put on
the queue at `bio_queue_head`, oldest first. -/
structure WriteBuffer (P : Nat) where
  buffer : List.Vector UInt8 P
  posn : Nat
  queue : List (List.Vector UInt8 P)
  posn_le : posn ≤ P

/-- The reader's side: the page being emptied, how much of it is consumed, and the pages of
readahead (`readahead_list_head`) not yet copied into it. -/
structure ReadBuffer (P : Nat) where
  buffer : List.Vector UInt8 P
  posn : Nat
  readahead : List (List.Vector UInt8 P)
  posn_le : posn ≤ P

namespace WriteBuffer

variable {P : Nat}

/-- `memcpy(toi_writer_buffer + toi_writer_buffer_posn, src, n)` and
`toi_writer_buffer_posn += n`, for `n` within the page's capacity. -/
def put (w : WriteBuffer P) (src : List UInt8) (h : src.length ≤ P - w.posn) : WriteBuffer P :=
  have := w.posn_le
  ⟨writeAtVec w.buffer w.posn src (by omega), w.posn + src.length, w.queue, by omega⟩

/-- `toi_bio_queue_write(&toi_writer_buffer)`, then `toi_bio_get_new_page` (a zeroed page)
and `toi_writer_buffer_posn = 0`. -/
def queueAndRenew (w : WriteBuffer P) : WriteBuffer P :=
  ⟨List.Vector.replicate P 0, 0, w.queue ++ [w.buffer], Nat.zero_le P⟩

/-- The bytes written so far: the queued pages, then the used part of the page. -/
def view (w : WriteBuffer P) : List UInt8 :=
  (w.queue.map List.Vector.toList).flatten ++ w.buffer.toList.take w.posn

@[simp] theorem put_posn (w : WriteBuffer P) (src : List UInt8) (h : src.length ≤ P - w.posn) :
    (w.put src h).posn = w.posn + src.length := rfl

@[simp] theorem queueAndRenew_posn (w : WriteBuffer P) : w.queueAndRenew.posn = 0 := rfl

theorem put_view (w : WriteBuffer P) (src : List UInt8) (h : src.length ≤ P - w.posn) :
    (w.put src h).view = w.view ++ src := by
  have hle : w.posn ≤ w.buffer.toList.length := by simpa using w.posn_le
  simp only [view, put, toList_writeAtVec, take_writeAt hle, List.append_assoc]

theorem queueAndRenew_view (w : WriteBuffer P) (h : w.posn = P) :
    w.queueAndRenew.view = w.view := by
  have hfull : w.buffer.toList.take w.posn = w.buffer.toList := by
    rw [h]
    exact List.take_of_length_le (by simp)
  simp [view, queueAndRenew, hfull]

end WriteBuffer

namespace ReadBuffer

variable {P : Nat}

/-- `memcpy(dst, toi_writer_buffer + toi_writer_buffer_posn, n)` and
`toi_writer_buffer_posn += n`, for `n` within what is left of the page. -/
def get (r : ReadBuffer P) (n : Nat) (h : n ≤ P - r.posn) : List UInt8 × ReadBuffer P :=
  have := r.posn_le
  (readAt r.buffer.toList r.posn n, ⟨r.buffer, r.posn + n, r.readahead, by omega⟩)

/-- `toi_bio_get_next_page_read`: the next page of readahead copied into `toi_writer_buffer`,
`-EIO` when there is none; then `toi_writer_buffer_posn = 0`. -/
def nextPage (r : ReadBuffer P) : Option (ReadBuffer P) :=
  match r.readahead with
  | [] => none
  | p :: ps => some ⟨p, 0, ps, Nat.zero_le P⟩

/-- The bytes still to be read: the rest of the page, then the readahead pages. -/
def view (r : ReadBuffer P) : List UInt8 :=
  r.buffer.toList.drop r.posn ++ (r.readahead.map List.Vector.toList).flatten

theorem nextPage_readahead {r r' : ReadBuffer P} (h : r.nextPage = some r') :
    r'.readahead.length < r.readahead.length := by
  unfold nextPage at h
  split at h
  · cases h
  · rename_i p ps hr
    cases h
    simp [hr]

theorem nextPage_view (r : ReadBuffer P) :
    (∀ r', r.nextPage = some r' → r'.view = r.view.drop (P - r.posn)) ∧
    (r.nextPage = none → r.view.length = P - r.posn) := by
  have hrest : (r.buffer.toList.drop r.posn).length = P - r.posn := by simp
  unfold nextPage
  split
  · rename_i hr
    simp [view, hr]
  · rename_i p ps hr
    refine ⟨fun r' h => ?_, fun h => by cases h⟩
    cases h
    simp [view, hr, List.drop_left' hrest]

theorem get_view (r : ReadBuffer P) (n : Nat) (h : n ≤ P - r.posn) :
    (r.get n h).1 = r.view.take n ∧ (r.get n h).2.view = r.view.drop n := by
  have hn : n ≤ (r.buffer.toList.drop r.posn).length := by simpa using h
  simp only [get, view, readAt, List.take_append_of_le_length hn,
    List.drop_append_of_le_length hn, List.drop_drop, and_self]

end ReadBuffer

section Rw

variable (a : Arch)

/-- `toi_rw_buffer(WRITE, src, ...)`. -/
def rwBufferWrite (src : List UInt8) (w : WriteBuffer a.pageSize) : WriteBuffer a.pageSize :=
  if h : src.length ≤ a.pageSize - w.posn then w.put src h
  else
    -- complete this page and start a new one
    rwBufferWrite (src.drop (a.pageSize - w.posn))
      (w.put (src.take (a.pageSize - w.posn)) (List.length_take_le _ _)).queueAndRenew
termination_by src.length + w.posn
decreasing_by
  have := a.pageSize_pos
  have := w.posn_le
  simp only [List.length_drop, WriteBuffer.queueAndRenew_posn]
  omega

/-- `toi_rw_buffer(READ, dst, n, ...)`: the `n` bytes copied to `dst`. -/
def rwBufferRead (n : Nat) (r : ReadBuffer a.pageSize) :
    Option (List UInt8 × ReadBuffer a.pageSize) :=
  if h : n ≤ a.pageSize - r.posn then some (r.get n h)
  else
    -- empty this page and read on in the next
    let head := readAt r.buffer.toList r.posn (a.pageSize - r.posn)
    match _hr : r.nextPage with
    | none => none
    | some r' => do
      let (rest, r'') ← rwBufferRead (n - (a.pageSize - r.posn)) r'
      pure (head ++ rest, r'')
termination_by r.readahead.length
decreasing_by exact ReadBuffer.nextPage_readahead _hr

variable {a}

theorem rwBufferWrite_view (src : List UInt8) (w : WriteBuffer a.pageSize) :
    (rwBufferWrite a src w).view = w.view ++ src := by
  rw [rwBufferWrite]
  split
  · rename_i h
    exact w.put_view src h
  · rename_i h
    have hfull : (w.put (src.take (a.pageSize - w.posn)) (List.length_take_le _ _)).posn = a.pageSize := by
      simp only [WriteBuffer.put_posn, List.length_take]
      have := w.posn_le
      omega
    rw [rwBufferWrite_view, WriteBuffer.queueAndRenew_view _ hfull, WriteBuffer.put_view,
      List.append_assoc, List.take_append_drop]
termination_by src.length + w.posn
decreasing_by
  have := a.pageSize_pos
  have := w.posn_le
  simp only [List.length_drop, WriteBuffer.queueAndRenew_posn]
  omega

/-- Reading takes from the front of the reader's view, and fails exactly when the view is too
short. -/
theorem rwBufferRead_view (n : Nat) (r : ReadBuffer a.pageSize) :
    (n ≤ r.view.length →
      ∃ r', rwBufferRead a n r = some (r.view.take n, r') ∧ r'.view = r.view.drop n) ∧
    (r.view.length < n → rwBufferRead a n r = none) := by
  rw [rwBufferRead]
  split
  · rename_i h
    have hv := r.get_view n h
    have hlen : n ≤ r.view.length := by
      simp only [ReadBuffer.view, List.length_append, List.length_drop, List.Vector.toList_length]
      omega
    refine ⟨fun _ => ⟨(r.get n h).2, ?_, hv.2⟩, fun hlt => absurd hlen (by omega)⟩
    rw [← hv.1]
  · rename_i h
    -- the rest of this page, then the next page's view
    have hhead : readAt r.buffer.toList r.posn (a.pageSize - r.posn) =
        r.view.take (a.pageSize - r.posn) := (r.get_view _ le_rfl).1
    have hnext := r.nextPage_view
    split
    · rename_i hr
      have hlen := hnext.2 hr
      exact ⟨fun hle => absurd hle (by omega), fun _ => rfl⟩
    · rename_i r' hr
      have hv' := hnext.1 r' hr
      have hlen' : r'.view.length = r.view.length - (a.pageSize - r.posn) := by
        rw [hv', List.length_drop]
      obtain ⟨ih₁, ih₂⟩ := rwBufferRead_view (n - (a.pageSize - r.posn)) r'
      refine ⟨fun hle => ?_, fun hlt => ?_⟩
      · obtain ⟨r'', hrd, hv''⟩ := ih₁ (by omega)
        refine ⟨r'', ?_, ?_⟩
        · have hn : n = (a.pageSize - r.posn) + (n - (a.pageSize - r.posn)) := by omega
          rw [hrd, hhead, hv']
          conv => rhs; rw [hn, List.take_add]
          rfl
        · rw [hv'', hv', List.drop_drop]
          congr 1
          omega
      · rw [ih₂ (by omega)]
        rfl
termination_by r.readahead.length
decreasing_by all_goals exact ReadBuffer.nextPage_readahead ‹_›

theorem rwBufferRead_prefix {r : ReadBuffer a.pageSize} (xs : List UInt8) {ys : List UInt8}
    (hv : r.view = xs ++ ys) :
    ∃ r', rwBufferRead a xs.length r = some (xs, r') ∧ r'.view = ys := by
  obtain ⟨r', hr, hv'⟩ := (rwBufferRead_view xs.length r).1 (by simp [hv])
  refine ⟨r', ?_, ?_⟩
  · rw [hr, hv, List.take_left]
  · rw [hv', hv, List.drop_left]

end Rw

section Stream

variable {P : Nat}

/-- The buffer `toi_rw_init(WRITE, ...)` sets up: a zeroed page, filled from position 0, and
nothing queued. -/
def toiRwInitWrite (P : Nat) : WriteBuffer P :=
  ⟨List.Vector.replicate P 0, 0, [], Nat.zero_le P⟩

/-- The buffer `toi_rw_init(READ, ...)` sets up: a zeroed page at position `PAGE_SIZE`, so that
the first read fetches a page, before the stream's pages as readahead. -/
def toiRwInitRead (P : Nat) (pages : List (List.Vector UInt8 P)) : ReadBuffer P :=
  ⟨List.Vector.replicate P 0, P, pages, le_rfl⟩

/-- The pages of a stream once `toi_rw_cleanup(WRITE)` has queued a partly filled page
(`TOI_ABORTED` clear). -/
def toiRwCleanupWrite (w : WriteBuffer P) : List (List.Vector UInt8 P) :=
  if w.posn ≠ 0 then w.queue ++ [w.buffer] else w.queue

@[simp] theorem toiRwInitWrite_view : (toiRwInitWrite P).view = [] := by
  simp [toiRwInitWrite, WriteBuffer.view]

@[simp] theorem toiRwInitRead_view (pages : List (List.Vector UInt8 P)) :
    (toiRwInitRead P pages).view = (pages.map List.Vector.toList).flatten := by
  simp [toiRwInitRead, ReadBuffer.view]

theorem length_toiRwCleanupWrite (w : WriteBuffer P) (hP : 0 < P) :
    (toiRwCleanupWrite w).length = (w.view.length + P - 1) / P := by
  have hview : w.view.length = w.queue.length * P + w.posn := by
    have := w.posn_le
    simp only [WriteBuffer.view, List.length_append, List.length_flatten, List.map_map,
      Function.comp_def, List.Vector.toList_length, List.map_const', List.sum_replicate_nat,
      List.length_take, Nat.min_eq_left this]
  rw [hview, toiRwCleanupWrite]
  split
  · -- a partly filled page is one more page
    rename_i h
    have := w.posn_le
    rw [List.length_append, List.length_singleton,
      show w.queue.length * P + w.posn + P - 1 = (w.posn + P - 1) + P * w.queue.length by
        rw [Nat.mul_comm]; omega,
      Nat.add_mul_div_left _ _ hP,
      Nat.div_eq_of_lt_le (k := 1) (by rw [Nat.one_mul]; omega) (by rw [Nat.two_mul]; omega)]
    omega
  · rename_i h
    rw [show w.posn = 0 by simpa using h, Nat.add_zero,
      show w.queue.length * P + P - 1 = (P - 1) + P * w.queue.length by
        rw [Nat.mul_comm]; omega,
      Nat.add_mul_div_left _ _ hP, Nat.div_eq_of_lt (by omega), Nat.zero_add]

theorem toiRwCleanupWrite_pages (w : WriteBuffer P) :
    ((toiRwCleanupWrite w).map List.Vector.toList).flatten =
      w.view ++ if w.posn = 0 then [] else w.buffer.toList.drop w.posn := by
  by_cases h : w.posn = 0
  · simp [toiRwCleanupWrite, WriteBuffer.view, h]
  · simp only [toiRwCleanupWrite, WriteBuffer.view, h, ne_eq, not_false_eq_true, if_true,
      if_false, List.map_append, List.flatten_append, List.append_assoc, List.take_append_drop]
    simp

end Stream

section Records

variable {a : Arch}

variable (a) in
/-- A record of the image as `toi_bio_write_page` lays it out,
`[destination pfn | page size | page data]`: the pfn an `unsigned long`, the size an `int`. -/
def pageRecord (pfn : Nat) (data : List UInt8) : List UInt8 :=
  leBytes a.sizeofLong pfn ++ leBytes a.sizeofInt data.length ++ data

variable (a) in
/-- `toi_bio_write_page(pfn, buffer_page, buf_size)`, `TOI_TEST_FILTER_SPEED` and
`TOI_ABORTED` clear. -/
def toiBioWritePage (pfn : Nat) (bufferPage : List UInt8) (bufSize : Nat)
    (w : WriteBuffer a.pageSize) : WriteBuffer a.pageSize :=
  let w := rwBufferWrite a (leBytes a.sizeofLong pfn) w
  let w := rwBufferWrite a (leBytes a.sizeofInt bufSize) w
  rwBufferWrite a (bufferPage.take bufSize) w

variable (a) in
/-- `toi_bio_read_page(&pfn, buffer_page, &buf_size)`: the pfn, the size, and `buffer_page`
with the data copied to its start.

The size is the stream's, and nothing compares it with `PAGE_SIZE`: a larger one is copied
past the end of `buffer_page`, which `writeAt` shows as a page that has grown. A size of
`2 ^ 31` or more is a negative `buffer_size` in `toi_rw_buffer`, handed on to `memcpy` as a
`size_t`; the model reads `bufSize` bytes there and is faithful only below that. -/
def toiBioReadPage (bufferPage : List UInt8) (r : ReadBuffer a.pageSize) :
    Option ((Nat × Nat × List UInt8) × ReadBuffer a.pageSize) := do
  let (pfnBytes, r) ← rwBufferRead a a.sizeofLong r
  let (sizeBytes, r) ← rwBufferRead a a.sizeofInt r
  let bufSize := leValue sizeBytes
  let (data, r) ← rwBufferRead a bufSize r
  pure ((leValue pfnBytes, bufSize, writeAt bufferPage 0 data), r)

theorem toiBioWritePage_view (pfn : Nat) {bufSize : Nat} {bufferPage : List UInt8}
    (w : WriteBuffer a.pageSize) (h : bufSize ≤ bufferPage.length) :
    (toiBioWritePage a pfn bufferPage bufSize w).view =
      w.view ++ pageRecord a pfn (bufferPage.take bufSize) := by
  have hlen : (bufferPage.take bufSize).length = bufSize := by
    rw [List.length_take, Nat.min_eq_left h]
  simp only [toiBioWritePage, rwBufferWrite_view, pageRecord, hlen, List.append_assoc]

/-- A record at the front of the reader's view is read back whole: its pfn, its size and its
data, and the view goes on after it. -/
theorem toiBioReadPage_record {pfn : Nat} {data rest : List UInt8} {r : ReadBuffer a.pageSize}
    (hpfn : pfn < 2 ^ (8 * a.sizeofLong)) (hdata : data.length < 2 ^ (8 * a.sizeofInt))
    (hv : r.view = pageRecord a pfn data ++ rest)
    (bufferPage : List UInt8) :
    ∃ r', toiBioReadPage a bufferPage r = some ((pfn, data.length, writeAt bufferPage 0 data), r') ∧
      r'.view = rest := by
  obtain ⟨r₁, h₁, hv₁⟩ := rwBufferRead_prefix (leBytes a.sizeofLong pfn)
    (by rw [hv, pageRecord, List.append_assoc, List.append_assoc])
  obtain ⟨r₂, h₂, hv₂⟩ := rwBufferRead_prefix (leBytes a.sizeofInt data.length)
    (by rw [hv₁])
  obtain ⟨r₃, h₃, hv₃⟩ := rwBufferRead_prefix data hv₂
  rw [length_leBytes] at h₁ h₂
  refine ⟨r₃, ?_, hv₃⟩
  simp only [toiBioReadPage, h₁, h₂, leValue_leBytes_of_lt hdata, leValue_leBytes_of_lt hpfn,
    Option.bind_eq_bind, Option.bind_some, h₃]
  rfl

end Records

end TuxOnIceFastboot.BlockIO
