import TuxOnIceFastboot.BlockIO.Buffer

/-!
# The compressor in the pipeline (`tuxonice_compress.c`)

Pages of the image pass through the compressor on their way to the block writer.
`toi_compress_write_page` hands on a page's compressed form when the compressor succeeds and
makes it shorter than the page, and the page itself otherwise; `toi_compress_read_page` tells
the two apart by the size alone: a record of `PAGE_SIZE` bytes is a page, anything shorter is
decompressed. `ctx` is the compressor, `none` when compression is off; it is the same on both
sides, and decompression is assumed to undo compression (`Compressor.Inverts`).

What the writer stores for a page is `storedBytes` (`toiCompressWritePage_view`), and the
reader gets the page back from it (`toiCompressReadPage_record`). Over a whole stream, written
from `toi_rw_init` to `toi_rw_cleanup` and read from `toi_rw_init` on the pages written, every
record comes back in order with its pfn, a size of `PAGE_SIZE` and its bytes
(`page_stream_round_trip`), wherever the records' boundaries fall in the pages.

On a stream the writer did not make, the size is all the reader has: neither
`toi_bio_read_page` nor `toi_compress_read_page` compares it with `PAGE_SIZE`, and a record
that claims more is read whole into the buffer page.
-/

namespace TuxOnIceFastboot.Pipeline

open TuxOnIceFastboot.Lib TuxOnIceFastboot.BlockIO

/-- A cryptoapi compressor, `ctx->transform`: `crypto_comp_compress` and
`crypto_comp_decompress`, `none` where they return an error. -/
structure Compressor where
  compress : List UInt8 → Option (List UInt8)
  decompress : List UInt8 → Option (List UInt8)

/-- Decompression gives back what was compressed. -/
def Compressor.Inverts (t : Compressor) : Prop :=
  ∀ d c, t.compress d = some c → t.decompress c = some d

section Pages

variable (a : Arch) (ctx : Option Compressor)

/-- `toi_compress_write_page(index, buffer_page, buf_size)`. -/
def toiCompressWritePage (index : Nat) (bufferPage : List UInt8) (bufSize : Nat)
    (w : WriteBuffer a.pageSize) : WriteBuffer a.pageSize :=
  match ctx with
  | none => toiBioWritePage a index bufferPage bufSize w
  | some t =>
    match t.compress (bufferPage.take bufSize) with
    | some out =>
      -- some compression
      if out.length < bufSize then toiBioWritePage a index out out.length w
      else toiBioWritePage a index bufferPage bufSize w
    | none => toiBioWritePage a index bufferPage bufSize w

/-- `toi_compress_read_page(&index, buffer_page, &buf_size)`. -/
def toiCompressReadPage (bufferPage : List UInt8) (r : ReadBuffer a.pageSize) :
    Option ((Nat × Nat × List UInt8) × ReadBuffer a.pageSize) :=
  match ctx with
  | none => toiBioReadPage a bufferPage r
  | some t => do
    let ((index, len, page), r) ← toiBioReadPage a bufferPage r
    -- uncompressed data
    if len = a.pageSize then pure ((index, a.pageSize, page), r)
    else
      let out ← t.decompress (page.take len)
      -- "Decompression yielded %d bytes instead of %ld."
      if out.length = a.pageSize then pure ((index, a.pageSize, writeAt page 0 out), r)
      else none

/-- What `toi_compress_write_page` hands on for a whole page: its compressed form where that
is shorter, the page itself otherwise. -/
def storedBytes (page : List UInt8) : List UInt8 :=
  match ctx with
  | none => page
  | some t =>
    match t.compress page with
    | some out => if out.length < page.length then out else page
    | none => page

/-- The writer's side of a pageset: each page written with `buf_size = PAGE_SIZE`. -/
def writeRecords : List (Nat × List UInt8) → WriteBuffer a.pageSize → WriteBuffer a.pageSize
  | [], w => w
  | (index, page) :: records, w =>
    writeRecords records (toiCompressWritePage a ctx index page a.pageSize w)

/-- The reader's side: `n` pages read, each into the buffer page the previous read left. -/
def readRecords (bufferPage : List UInt8) :
    Nat → ReadBuffer a.pageSize → Option (List (Nat × Nat × List UInt8) × ReadBuffer a.pageSize)
  | 0, r => some ([], r)
  | n + 1, r => do
    let ((index, size, page), r) ← toiCompressReadPage a ctx bufferPage r
    let (records, r) ← readRecords page n r
    pure ((index, size, page) :: records, r)

end Pages

section RoundTrip

variable {a : Arch} {ctx : Option Compressor}

variable (ctx) in
theorem storedBytes_cases (page : List UInt8) :
    storedBytes ctx page = page ∨ ∃ t out, ctx = some t ∧ t.compress page = some out ∧
      out.length < page.length ∧ storedBytes ctx page = out := by
  unfold storedBytes
  split
  · exact .inl rfl
  · rename_i t
    split
    · rename_i out hout
      split_ifs with h
      · exact .inr ⟨t, out, rfl, hout, h, rfl⟩
      · exact .inl rfl
    · exact .inl rfl

variable (ctx) in
theorem storedBytes_length_le (page : List UInt8) :
    (storedBytes ctx page).length ≤ page.length := by
  rcases storedBytes_cases ctx page with h | ⟨_, _, -, -, hshort, h⟩
  · rw [h]
  · rw [h]
    exact Nat.le_of_lt hshort

/-- A page is stored as the record of `storedBytes`. -/
theorem toiCompressWritePage_view (index : Nat) {page : List UInt8} {bufSize : Nat}
    (hsize : page.length = bufSize) (w : WriteBuffer a.pageSize) :
    (toiCompressWritePage a ctx index page bufSize w).view =
      w.view ++ pageRecord a index (storedBytes ctx page) := by
  subst hsize
  have hraw := toiBioWritePage_view index w (le_refl page.length)
  rw [List.take_length] at hraw
  unfold toiCompressWritePage storedBytes
  split
  · exact hraw
  · rw [List.take_length]
    split
    · rename_i out _
      split_ifs with h
      · have hout := toiBioWritePage_view index w (le_refl out.length)
        rwa [List.take_length] at hout
      · exact hraw
    · exact hraw

section Read

variable {bufferPage : List UInt8} {r r' : ReadBuffer a.pageSize} {index : Nat}
  {page : List UInt8}

theorem toiCompressReadPage_raw
    (hread : toiBioReadPage a bufferPage r = some ((index, a.pageSize, page), r')) :
    toiCompressReadPage a ctx bufferPage r = some ((index, a.pageSize, page), r') := by
  unfold toiCompressReadPage
  split
  · exact hread
  · simp only [hread, Option.bind_eq_bind, Option.bind_some, if_true]
    rfl

theorem toiCompressReadPage_decompress {t : Compressor} {len : Nat} {out : List UInt8}
    (hread : toiBioReadPage a bufferPage r = some ((index, len, page), r'))
    (hlen : len ≠ a.pageSize) (hdec : t.decompress (page.take len) = some out)
    (hout : out.length = a.pageSize) :
    toiCompressReadPage a (some t) bufferPage r =
      some ((index, a.pageSize, writeAt page 0 out), r') := by
  simp only [toiCompressReadPage, hread, Option.bind_eq_bind, Option.bind_some, hlen, if_false,
    hdec, hout, if_true]
  rfl

end Read

/-- A stored page is read back as the page, with size `PAGE_SIZE`, into a buffer page. -/
theorem toiCompressReadPage_record (hinv : ∀ t ∈ ctx, t.Inverts)
    (hint : a.pageSize < 2 ^ (8 * a.sizeofInt)) {index : Nat}
    (hidx : index < 2 ^ (8 * a.sizeofLong)) {page rest : List UInt8}
    (hpage : page.length = a.pageSize) {r : ReadBuffer a.pageSize}
    (hv : r.view = pageRecord a index (storedBytes ctx page) ++ rest) {bufferPage : List UInt8}
    (hbuf : bufferPage.length = a.pageSize) :
    ∃ r', toiCompressReadPage a ctx bufferPage r = some ((index, a.pageSize, page), r') ∧
      r'.view = rest := by
  have hstored := storedBytes_length_le ctx page
  obtain ⟨r', hread, hv'⟩ := toiBioReadPage_record hidx (by omega) hv bufferPage
  refine ⟨r', ?_, hv'⟩
  rcases storedBytes_cases ctx page with hs | ⟨t, out, rfl, hout, hshort, hs⟩
  · -- the page itself
    rw [hs, hpage, writeAt_zero_of_length_eq (by omega)] at hread
    exact toiCompressReadPage_raw hread
  · -- its compressed form, shorter than a page and decompressed back to it
    rw [hs] at hread
    have hdec : t.decompress ((writeAt bufferPage 0 out).take out.length) = some page := by
      rw [show out.length = 0 + out.length by omega, take_writeAt (by omega),
        List.take_zero, List.nil_append]
      exact hinv t rfl page out hout
    have hlen : page.length = (writeAt bufferPage 0 out).length := by
      rw [length_writeAt (by omega)]
      omega
    rw [toiCompressReadPage_decompress hread (by omega) hdec hpage, writeAt_zero_of_length_eq hlen]

variable (ctx) in
theorem writeRecords_view (records : List (Nat × List UInt8))
    (hrec : ∀ x ∈ records, x.2.length = a.pageSize) (w : WriteBuffer a.pageSize) :
    (writeRecords a ctx records w).view =
      w.view ++ records.flatMap fun x => pageRecord a x.1 (storedBytes ctx x.2) := by
  induction records generalizing w with
  | nil => simp [writeRecords]
  | cons x records ih =>
    obtain ⟨index, page⟩ := x
    have hpage : page.length = a.pageSize := hrec _ List.mem_cons_self
    rw [writeRecords, ih (fun y hy => hrec y (List.mem_cons_of_mem _ hy)),
      toiCompressWritePage_view index hpage, List.flatMap_cons, List.append_assoc]

theorem readRecords_view (hinv : ∀ t ∈ ctx, t.Inverts) (hint : a.pageSize < 2 ^ (8 * a.sizeofInt))
    (records : List (Nat × List UInt8))
    (hrec : ∀ x ∈ records, x.1 < 2 ^ (8 * a.sizeofLong) ∧ x.2.length = a.pageSize)
    {rest : List UInt8} {r : ReadBuffer a.pageSize}
    (hv : r.view = (records.flatMap fun x => pageRecord a x.1 (storedBytes ctx x.2)) ++ rest)
    {bufferPage : List UInt8} (hbuf : bufferPage.length = a.pageSize) :
    ∃ r', readRecords a ctx bufferPage records.length r =
      some (records.map fun x => (x.1, a.pageSize, x.2), r') ∧ r'.view = rest := by
  induction records generalizing r bufferPage with
  | nil => exact ⟨r, rfl, by simpa using hv⟩
  | cons x records ih =>
    obtain ⟨index, page⟩ := x
    obtain ⟨hidx, hpage⟩ := hrec _ List.mem_cons_self
    have hv₁ : r.view = pageRecord a index (storedBytes ctx page) ++
        ((records.flatMap fun x => pageRecord a x.1 (storedBytes ctx x.2)) ++ rest) := by
      rw [hv, List.flatMap_cons, List.append_assoc]
    obtain ⟨r₁, h₁, hv₁'⟩ := toiCompressReadPage_record hinv hint hidx hpage hv₁ hbuf
    obtain ⟨r₂, h₂, hv₂⟩ := ih (fun y hy => hrec y (List.mem_cons_of_mem _ hy)) hv₁' hpage
    refine ⟨r₂, ?_, hv₂⟩
    simp only [List.length_cons, readRecords, h₁, h₂, Option.bind_eq_bind, Option.bind_some,
      List.map_cons]
    rfl

/-- The records written to a stream from `toi_rw_init` to `toi_rw_cleanup` are read back from
`toi_rw_init` on its pages: each with its pfn, with size `PAGE_SIZE` and with its bytes. -/
theorem page_stream_round_trip (hinv : ∀ t ∈ ctx, t.Inverts)
    (hint : a.pageSize < 2 ^ (8 * a.sizeofInt)) (records : List (Nat × List UInt8))
    (hrec : ∀ x ∈ records, x.1 < 2 ^ (8 * a.sizeofLong) ∧ x.2.length = a.pageSize)
    (bufferPage : List UInt8) (hbuf : bufferPage.length = a.pageSize) :
    ∃ r, readRecords a ctx bufferPage records.length (toiRwInitRead a.pageSize
        (toiRwCleanupWrite (writeRecords a ctx records (toiRwInitWrite a.pageSize)))) =
      some (records.map fun x => (x.1, a.pageSize, x.2), r) := by
  have hw := writeRecords_view ctx records (fun x hx => (hrec x hx).2)
    (toiRwInitWrite a.pageSize)
  have hv := toiRwCleanupWrite_pages (writeRecords a ctx records (toiRwInitWrite a.pageSize))
  rw [hw, toiRwInitWrite_view, List.nil_append] at hv
  obtain ⟨r, hr, -⟩ := readRecords_view hinv hint records hrec
    (by rw [toiRwInitRead_view, hv]) hbuf
  exact ⟨r, hr⟩

/-- A compressor that never makes a page shorter, so that every page is stored as it is. -/
def reversingCompressor : Compressor := ⟨fun d => some d.reverse, fun c => some c.reverse⟩

/-- Two pages of x86-64, one of ones and one of zeros, for the pfns 7 and 9. -/
def twoPages : List (Nat × List UInt8) :=
  [(7, List.replicate Arch.x86_64.pageSize 1), (9, List.replicate Arch.x86_64.pageSize 0)]

theorem page_stream_round_trip_x86_64 :
    (∀ t ∈ some reversingCompressor, t.Inverts) ∧
      Arch.x86_64.pageSize < 2 ^ (8 * Arch.x86_64.sizeofInt) ∧
      (∀ x ∈ twoPages, x.1 < 2 ^ (8 * Arch.x86_64.sizeofLong) ∧ x.2.length = Arch.x86_64.pageSize) ∧
      (List.replicate Arch.x86_64.pageSize (0 : UInt8)).length = Arch.x86_64.pageSize ∧
      ∃ r, readRecords Arch.x86_64 (some reversingCompressor)
          (List.replicate Arch.x86_64.pageSize 0) twoPages.length
          (toiRwInitRead Arch.x86_64.pageSize (toiRwCleanupWrite
            (writeRecords Arch.x86_64 (some reversingCompressor) twoPages
              (toiRwInitWrite Arch.x86_64.pageSize)))) =
        some (twoPages.map fun x => (x.1, Arch.x86_64.pageSize, x.2), r) := by
  have hinv : ∀ t ∈ some reversingCompressor, t.Inverts := by
    intro t ht d c hc
    cases ht
    simp only [reversingCompressor, Option.some.injEq] at hc
    simp [reversingCompressor, ← hc]
  have hint : Arch.x86_64.pageSize < 2 ^ (8 * Arch.x86_64.sizeofInt) := by decide
  have hrec : ∀ x ∈ twoPages,
      x.1 < 2 ^ (8 * Arch.x86_64.sizeofLong) ∧ x.2.length = Arch.x86_64.pageSize := by
    intro x hx
    simp only [twoPages, List.mem_cons, List.not_mem_nil, or_false] at hx
    rcases hx with rfl | rfl <;> exact ⟨by decide, List.length_replicate⟩
  have hbuf : (List.replicate Arch.x86_64.pageSize (0 : UInt8)).length = Arch.x86_64.pageSize :=
    List.length_replicate
  exact ⟨hinv, hint, hrec, hbuf, page_stream_round_trip hinv hint twoPages hrec _ hbuf⟩

end RoundTrip

section Oversized

variable {a : Arch}

/-- A record whose size field is above `PAGE_SIZE` is copied whole into the one-page buffer:
`toi_bio_read_page` succeeds with a page longer than `PAGE_SIZE`, and whatever
`toi_compress_read_page` hands on, with a compressor or without, has such a page too. -/
theorem read_page_past_buffer_page (ctx : Option Compressor) {pfn : Nat}
    {data rest : List UInt8} {r : ReadBuffer a.pageSize} (hpfn : pfn < 2 ^ (8 * a.sizeofLong))
    (hbig : a.pageSize < data.length) (hint : data.length < 2 ^ (8 * a.sizeofInt - 1))
    (hv : r.view = pageRecord a pfn data ++ rest) (bufferPage : List UInt8)
    (hbuf : bufferPage.length = a.pageSize) :
    (∃ r', toiBioReadPage a bufferPage r =
        some ((pfn, data.length, writeAt bufferPage 0 data), r') ∧
      a.pageSize < (writeAt bufferPage 0 data).length) ∧
    ∀ res ∈ toiCompressReadPage a ctx bufferPage r, a.pageSize < res.1.2.2.length := by
  have hsize : data.length < 2 ^ (8 * a.sizeofInt) :=
    lt_of_lt_of_le hint (Nat.pow_le_pow_right Nat.two_pos (Nat.sub_le _ _))
  obtain ⟨r', hread, -⟩ := toiBioReadPage_record hpfn hsize hv bufferPage
  have hlong : (writeAt bufferPage 0 data).length = data.length := by
    simp only [writeAt, List.length_append, List.length_take, List.length_drop]
    omega
  refine ⟨⟨r', hread, by omega⟩, ?_⟩
  rintro ⟨⟨index, len, page⟩, r''⟩ hres
  cases ctx with
  | none =>
    rw [toiCompressReadPage, hread, Option.mem_def, Option.some_inj] at hres
    cases hres
    simpa [hlong] using hbig
  | some t =>
    -- the size is not `PAGE_SIZE`, so the record goes to the decompressor, whose output is
    -- written over the front of the page that was read
    simp only [toiCompressReadPage, hread, Option.bind_eq_bind, Option.bind_some,
      show data.length ≠ a.pageSize by omega, if_false, Option.mem_def] at hres
    rcases hdec : t.decompress ((writeAt bufferPage 0 data).take data.length) with _ | out
    · simp [hdec] at hres
    · by_cases hout : out.length = a.pageSize
      · simp only [hdec, hout, Option.bind_some, if_true, Option.pure_def,
          Option.some_inj] at hres
        cases hres
        rw [length_writeAt (by omega)]
        omega
      · simp [hdec, hout] at hres

/-- A stream whose first record claims `PAGE_SIZE + 1` bytes of data, on x86-64. -/
@[irreducible] def oversizedStream : List UInt8 :=
  pageRecord Arch.x86_64 0 (List.replicate 4097 0) ++ List.replicate 4083 0

theorem length_oversizedStream : oversizedStream.length = 2 * Arch.x86_64.pageSize := by
  simp only [oversizedStream, pageRecord, List.length_append, length_leBytes,
    List.length_replicate]
  rfl

/-- `oversizedStream` on two pages. -/
def oversizedPages : List (List.Vector UInt8 Arch.x86_64.pageSize) :=
  [⟨oversizedStream.take Arch.x86_64.pageSize, by
      rw [List.length_take, length_oversizedStream]; omega⟩,
    ⟨oversizedStream.drop Arch.x86_64.pageSize, by
      rw [List.length_drop, length_oversizedStream]; omega⟩]

theorem read_page_past_buffer_page_x86_64 :
    0 < 2 ^ (8 * Arch.x86_64.sizeofLong) ∧
      Arch.x86_64.pageSize < (List.replicate 4097 (0 : UInt8)).length ∧
      (List.replicate 4097 (0 : UInt8)).length < 2 ^ (8 * Arch.x86_64.sizeofInt - 1) ∧
      (toiRwInitRead Arch.x86_64.pageSize oversizedPages).view =
        pageRecord Arch.x86_64 0 (List.replicate 4097 0) ++ List.replicate 4083 0 ∧
      (List.replicate Arch.x86_64.pageSize (0 : UInt8)).length = Arch.x86_64.pageSize ∧
      ((∃ r', toiBioReadPage Arch.x86_64 (List.replicate Arch.x86_64.pageSize 0)
          (toiRwInitRead Arch.x86_64.pageSize oversizedPages) =
          some ((0, (List.replicate 4097 (0 : UInt8)).length,
            writeAt (List.replicate Arch.x86_64.pageSize 0) 0 (List.replicate 4097 0)), r') ∧
        Arch.x86_64.pageSize < (writeAt (List.replicate Arch.x86_64.pageSize (0 : UInt8)) 0
          (List.replicate 4097 0)).length) ∧
      ∀ res ∈ toiCompressReadPage Arch.x86_64 none (List.replicate Arch.x86_64.pageSize 0)
          (toiRwInitRead Arch.x86_64.pageSize oversizedPages),
        Arch.x86_64.pageSize < res.1.2.2.length) := by
  have hpfn : 0 < 2 ^ (8 * Arch.x86_64.sizeofLong) := Nat.two_pow_pos _
  have hbig : Arch.x86_64.pageSize < (List.replicate 4097 (0 : UInt8)).length := by
    rw [List.length_replicate]
    decide
  have hint : (List.replicate 4097 (0 : UInt8)).length < 2 ^ (8 * Arch.x86_64.sizeofInt - 1) := by
    rw [List.length_replicate]
    decide
  have hv : (toiRwInitRead Arch.x86_64.pageSize oversizedPages).view =
      pageRecord Arch.x86_64 0 (List.replicate 4097 0) ++ List.replicate 4083 0 := by
    rw [toiRwInitRead_view]
    show oversizedStream.take _ ++ (oversizedStream.drop _ ++ []) = _
    rw [List.append_nil, List.take_append_drop, oversizedStream]
  have hbuf : (List.replicate Arch.x86_64.pageSize (0 : UInt8)).length = Arch.x86_64.pageSize :=
    List.length_replicate
  exact ⟨hpfn, hbig, hint, hv, hbuf, read_page_past_buffer_page none hpfn hbig hint hv _ hbuf⟩

end Oversized

end TuxOnIceFastboot.Pipeline
