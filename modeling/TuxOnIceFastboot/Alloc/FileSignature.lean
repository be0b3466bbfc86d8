import TuxOnIceFastboot.Alloc.Signature

/-!
# The file allocator's image signature

The file allocator keeps its signature in `struct toi_file_header`, at the start of the first
block of the target: a signature, whether a resume was tried, the block the image header
starts at, and whether an image is there. `toi_file_write_header_cleanup` signs it;
`toi_file_signature_op` reads it, invalidates it and marks it.

Over the header stands a three-state image: a target the code does not know, no image, or an
image with its first header block and its mark. Every call moves it as the abstract machine
says when the call's write lands, and leaves it when the call fails, over any run of calls;
a call whose I/O all succeeds answers as the abstract machine does.
-/

namespace TuxOnIceFastboot.Alloc.File

open Lib

/-! ### The header and the calls -/

/-- `static char HaveImage[] = "HaveImage\n"`, the old signature of a file holding an image,
with its terminating `0`. -/
def haveImage : List UInt8 := ['H', 'a', 'v', 'e', 'I', 'm', 'a', 'g', 'e', '\n'].map Char.toUInt8 ++ [0]

/-- `static char NoImage[] = "TuxOnIce\n"`, the old signature of a file without one. -/
def noImage : List UInt8 := ['T', 'u', 'x', 'O', 'n', 'I', 'c', 'e', '\n'].map Char.toUInt8 ++ [0]

/-- `struct toi_file_header`. -/
structure ToiFileHeader where
  sig : List UInt8
  resumedBefore : Int
  firstHeaderBlock : Nat
  haveImage : Int
  deriving DecidableEq, Repr

/-- What the signature code reads and writes: the header on the target's first block
(`target_firstblock`), `TOI_RESUMED_BEFORE` and `target_header_start`. -/
structure FileState where
  header : ToiFileHeader
  resumedBefore : Bool
  targetHeaderStart : Nat
  deriving DecidableEq, Repr

/-- The results of the calls the signature code makes and the model does not follow: whether
`toi_file_target_bdev` is open, whether `toi_get_zeroed_page` gives a page, and what
`write_header_chunk_finish`, `bdev_page_io` (the read of the first block, then its write) and
`finish_all_io` return. -/
structure FileIo where
  targetBdev : Bool
  pageOk : Bool
  chunkFinish : Int
  readResult : Int
  writeResult : Int
  finishAllIo : Int
  deriving DecidableEq, Repr

/-- The operations of `toi_file_signature_op`. -/
inductive SignatureOp
  | getImageExists
  | invalidate
  | markResumeAttempted
  | unmarkResumeAttempted
  deriving DecidableEq, Repr

/-- The entry points of the allocator that touch the signature. -/
inductive FileCall
  | writeHeaderCleanup (firstHeaderBlock : Nat)
  | imageExists
  | removeImage
  | markResumeAttempted (mark : Bool)
  deriving DecidableEq, Repr

section Code

variable (a : Arch)

/-- `memcpy(header->sig, tuxonice_signature, sizeof(tuxonice_signature))`: the first
`sizeof(char *)` bytes of the signature over the start of `sig`. -/
def copySignature (sig : List UInt8) : List UInt8 :=
  writeAt sig 0 (Swap.tuxoniceSignature.take a.sizeofLong)

/-- What `parse_signature(header)` returns: `0` for the old no-image signature, or for the
binary one without an image; `-1` for neither old signature nor the binary one; else `1`. -/
def signatureKind (header : ToiFileHeader) : Int :=
  let haveImageText :=
    haveImage.take (haveImage.length - 1) == header.sig.take (haveImage.length - 1)
  let noImageHeader := noImage.take (noImage.length - 1) == header.sig.take (noImage.length - 1)
  let binarySig := Swap.tuxoniceSignature.take a.sizeofLong == header.sig.take a.sizeofLong
  if noImageHeader || (binarySig && header.haveImage == 0) then 0
  else if !haveImageText && !binarySig then -1
  else 1

/-- `parse_signature(header)`: an image also sets `TOI_RESUMED_BEFORE` from the header and
`target_header_start` to its first header block. -/
def parseSignature (header : ToiFileHeader) (st : FileState) : Int × FileState :=
  if signatureKind a header = 1 then
    (1, { st with
      resumedBefore := header.resumedBefore ≠ 0
      targetHeaderStart := header.firstHeaderBlock })
  else (signatureKind a header, st)

/-- `prepare_signature(current_header, first_header_block)`. -/
def prepareSignature (header : ToiFileHeader) (firstHeaderBlock : Nat) : ToiFileHeader :=
  { sig := copySignature a header.sig, resumedBefore := 0, firstHeaderBlock, haveImage := 1 }

/-- The `switch (op)` of `toi_file_signature_op` once `parse_signature` returned `parsed`: the
header to write back if it changed, and `result`. -/
def signatureOpChange (op : SignatureOp) (parsed : Int) (header : ToiFileHeader) :
    Option ToiFileHeader × Int :=
  match op with
  | .getImageExists => (none, parsed)
  | .invalidate =>
    if parsed = -1 then (none, parsed)
    else (some { header with sig := copySignature a header.sig, resumedBefore := 0, haveImage := 0 }, 1)
  | .markResumeAttempted =>
    if parsed = 1 then (some { header with resumedBefore := 1 }, parsed) else (none, parsed)
  | .unmarkResumeAttempted =>
    if parsed = 1 then (some { header with resumedBefore := 0 }, parsed) else (none, parsed)

/-- `toi_file_signature_op(op)`. -/
def toiFileSignatureOp (io : FileIo) (op : SignatureOp) (st : FileState) : Int × FileState :=
  if !io.targetBdev then (-1, st)
  else if !io.pageOk then (-ENOMEM, st)
  -- a failed read goes to `out` with `result` set
  else if io.readResult ≠ 0 then (io.readResult, st)
  else
    let parsed := parseSignature a st.header st
    let change := signatureOpChange a op parsed.1 st.header
    -- a failed write leaves the block as it was
    let written : Int × FileState :=
      match change.1 with
      | none => (change.2, parsed.2)
      | some header =>
        if io.writeResult ≠ 0 then (io.writeResult, parsed.2)
        else (change.2, { parsed.2 with header := header })
    (if written.1 ≠ 0 then written.1 else io.finishAllIo, written.2)

/-- `toi_file_write_header_cleanup()`: `firstHeaderBlock` is
`toi_writer_posn.current_offset << devinfo.bmap_shift` once the position is one page past the
start of the image. -/
def toiFileWriteHeaderCleanup (io : FileIo) (firstHeaderBlock : Nat) (st : FileState) :
    Int × FileState :=
  let written : Int × FileState :=
    if io.chunkFinish ≠ 0 then (io.chunkFinish, st)
    else if io.readResult ≠ 0 then (io.readResult, st)
    else if io.writeResult ≠ 0 then (io.writeResult, st)
    else (0, { st with header := prepareSignature a st.header firstHeaderBlock })
  (if written.1 ≠ 0 then written.1 else io.finishAllIo, written.2)

/-- `toi_file_image_exists(quiet)`, on a target whose block device is open (`io.targetBdev`
says whether reopening it worked). -/
def toiFileImageExists (io : FileIo) (st : FileState) : Int × FileState :=
  toiFileSignatureOp a io .getImageExists st

/-- `toi_file_remove_image()`, after `toi_file_release_storage`. -/
def toiFileRemoveImage (io : FileIo) (st : FileState) : Int × FileState :=
  toiFileSignatureOp a io .invalidate st

/-- `toi_file_mark_resume_attempted(mark)`. -/
def toiFileMarkResumeAttempted (io : FileIo) (mark : Bool) (st : FileState) : Int × FileState :=
  toiFileSignatureOp a io (if mark then .markResumeAttempted else .unmarkResumeAttempted) st

/-- One call, with the results of its I/O. -/
def FileCall.step (io : FileIo) : FileCall → FileState → Int × FileState
  | .writeHeaderCleanup firstHeaderBlock => toiFileWriteHeaderCleanup a io firstHeaderBlock
  | .imageExists => toiFileImageExists a io
  | .removeImage => toiFileRemoveImage a io
  | .markResumeAttempted mark => toiFileMarkResumeAttempted a io mark

/-- A run of calls: what each returns, and the state at the end. -/
def runCalls : List (FileIo × FileCall) → FileState → List Int × FileState
  | [], st => ([], st)
  | (io, c) :: cs, st =>
    let r := c.step a io st
    let rest := runCalls cs r.2
    (r.1 :: rest.1, rest.2)

end Code

/-! ### What the signature says -/

/-- What the first block of the target says of an image. -/
inductive FileImage
  | unknown
  | noImage
  | image (firstHeaderBlock : Nat) (resumed : Bool)
  deriving DecidableEq, Repr

namespace FileImage

/-- The abstract calls: an image written with its header from a block, a question, a removal
of the image from a target the code knows, and a mark on an image. -/
def step : FileCall → FileImage → FileImage
  | .writeHeaderCleanup b, _ => image b false
  | .imageExists, i => i
  | .removeImage, unknown => unknown
  | .removeImage, _ => noImage
  | .markResumeAttempted m, image b _ => image b m
  | .markResumeAttempted _, i => i

/-- What the calls answer: `0` for a written image, `1` for a removal from a known target, and
otherwise `-1`, `0` or `1` for an unknown target, no image or an image. -/
def answer : FileCall → FileImage → Int
  | .writeHeaderCleanup _, _ => 0
  | .removeImage, unknown => -1
  | .removeImage, _ => 1
  | _, unknown => -1
  | _, noImage => 0
  | _, image _ _ => 1

/-- A run of the abstract machine: the answers, and the image at the end. -/
def run : List FileCall → FileImage → List Int × FileImage
  | [], i => ([], i)
  | c :: cs, i =>
    let rest := run cs (step c i)
    (answer c i :: rest.1, rest.2)

@[simp] theorem step_imageExists (i : FileImage) : step .imageExists i = i := by
  cases i <;> rfl

@[simp] theorem step_removeImage_unknown : step .removeImage unknown = unknown := rfl

theorem step_removeImage_of_ne {i : FileImage} (hi : i ≠ unknown) : step .removeImage i = noImage := by
  cases i with
  | unknown => exact absurd rfl hi
  | noImage => rfl
  | image b r => rfl

theorem answer_removeImage_of_ne {i : FileImage} (hi : i ≠ unknown) : answer .removeImage i = 1 := by
  cases i with
  | unknown => exact absurd rfl hi
  | noImage => rfl
  | image b r => rfl

@[simp] theorem step_mark_image (m r : Bool) (b : Nat) :
    step (.markResumeAttempted m) (image b r) = image b m := rfl

theorem step_mark_of_ne {i : FileImage} (hi : ∀ b r, i ≠ image b r) (m : Bool) :
    step (.markResumeAttempted m) i = i := by
  cases i with
  | unknown => rfl
  | noImage => rfl
  | image b r => exact absurd rfl (hi b r)

end FileImage

/-- What a header says, as `parse_signature` reads it. -/
def ToiFileHeader.image (a : Arch) (h : ToiFileHeader) : FileImage :=
  if signatureKind a h = 1 then .image h.firstHeaderBlock (h.resumedBefore ≠ 0)
  else if signatureKind a h = 0 then .noImage
  else .unknown

/-- Whether a call's write reaches the first block: every call before it in the code
succeeded, and so did the write. -/
def FileCall.lands (io : FileIo) : FileCall → Bool
  | .writeHeaderCleanup _ => io.chunkFinish == 0 && io.readResult == 0 && io.writeResult == 0
  | _ => io.targetBdev && io.pageOk && io.readResult == 0 && io.writeResult == 0

/-- Every call the code makes succeeds. -/
def FileIo.ok (io : FileIo) : Bool :=
  io.targetBdev && io.pageOk && io.chunkFinish == 0 && io.readResult == 0 &&
    io.writeResult == 0 && io.finishAllIo == 0

/-! ### The header as the code leaves it -/

section Header

variable {a : Arch}

theorem length_signature (hle : a.sizeofLong ≤ 9) :
    (Swap.tuxoniceSignature.take a.sizeofLong).length = a.sizeofLong := by
  simp only [List.length_take, Swap.tuxoniceSignature, List.length_cons, List.length_nil]
  omega

theorem take_copySignature (hle : a.sizeofLong ≤ 9) (sig : List UInt8) :
    (copySignature a sig).take a.sizeofLong = Swap.tuxoniceSignature.take a.sizeofLong := by
  rw [copySignature, writeAt_zero]
  exact List.take_left' (length_signature hle)

theorem noImage_ne_copySignature (hpos : 0 < a.sizeofLong) (sig : List UInt8) :
    (noImage.take (noImage.length - 1) == (copySignature a sig).take (noImage.length - 1)) =
      false := by
  obtain ⟨k, hk⟩ : ∃ k, a.sizeofLong = k + 1 := ⟨a.sizeofLong - 1, by omega⟩
  have hT : ('T' : Char).toUInt8 ≠ 0xed := by decide
  rw [copySignature, writeAt_zero, hk, Swap.tuxoniceSignature, List.take_succ_cons,
    List.cons_append]
  simp [noImage, hT]

theorem signatureKind_of_sig (hpos : 0 < a.sizeofLong) (hle : a.sizeofLong ≤ 9)
    {h : ToiFileHeader} {sig : List UInt8} (hsig : h.sig = copySignature a sig) :
    signatureKind a h = if h.haveImage = 0 then 0 else 1 := by
  unfold signatureKind
  dsimp only
  rw [hsig, noImage_ne_copySignature hpos, take_copySignature hle, beq_self_eq_true]
  by_cases hx : h.haveImage = 0 <;> simp [hx]

/-- `parse_signature` reads the signature and `have_image`, nothing else. -/
@[simp] theorem signatureKind_resumedBefore (h : ToiFileHeader) (r : Int) :
    signatureKind a { h with resumedBefore := r } = signatureKind a h := rfl

theorem signatureKind_cases (h : ToiFileHeader) :
    signatureKind a h = -1 ∨ signatureKind a h = 0 ∨ signatureKind a h = 1 := by
  unfold signatureKind
  dsimp only
  split_ifs <;> simp

theorem image_prepareSignature (hpos : 0 < a.sizeofLong) (hle : a.sizeofLong ≤ 9)
    (h : ToiFileHeader) (b : Nat) : (prepareSignature a h b).image a = .image b false := by
  have hk : signatureKind a (prepareSignature a h b) = 1 := by
    rw [signatureKind_of_sig hpos hle rfl]
    rfl
  simp only [ToiFileHeader.image, hk, if_true]
  rfl

theorem image_invalidate (hpos : 0 < a.sizeofLong) (hle : a.sizeofLong ≤ 9) (h : ToiFileHeader) :
    ({ h with sig := copySignature a h.sig, resumedBefore := 0, haveImage := 0 } :
      ToiFileHeader).image a = .noImage := by
  have hk : signatureKind a
      { h with sig := copySignature a h.sig, resumedBefore := 0, haveImage := 0 } = 0 := by
    rw [signatureKind_of_sig hpos hle rfl]
    rfl
  simp only [ToiFileHeader.image, hk]
  rfl

theorem image_resumedBefore {h : ToiFileHeader} (hk : signatureKind a h = 1) (r : Int) :
    ({ h with resumedBefore := r } : ToiFileHeader).image a = .image h.firstHeaderBlock (r ≠ 0) := by
  simp only [ToiFileHeader.image, signatureKind_resumedBefore, hk, if_true]

theorem answer_image {h : ToiFileHeader} {c : FileCall} (hc : c = .imageExists ∨ ∃ m, c = .markResumeAttempted m) :
    (h.image a).answer c = signatureKind a h := by
  rcases signatureKind_cases (a := a) h with hk | hk | hk <;>
    rcases hc with rfl | ⟨m, rfl⟩ <;>
    simp [ToiFileHeader.image, FileImage.answer, hk]

end Header

/-! ### The calls -/

section Calls

variable {a : Arch}

@[simp] theorem parseSignature_fst (h : ToiFileHeader) (st : FileState) :
    (parseSignature a h st).1 = signatureKind a h := by
  unfold parseSignature
  split
  · next hk => exact hk.symm
  · rfl

@[simp] theorem parseSignature_header (h : ToiFileHeader) (st : FileState) :
    (parseSignature a h st).2.header = st.header := by
  unfold parseSignature
  split <;> rfl

theorem toiFileSignatureOp_header (io : FileIo) (op : SignatureOp) (st : FileState) :
    (toiFileSignatureOp a io op st).2.header =
      if io.targetBdev && io.pageOk && io.readResult == 0 && io.writeResult == 0 then
        (signatureOpChange a op (signatureKind a st.header) st.header).1.getD st.header
      else st.header := by
  unfold toiFileSignatureOp
  dsimp only
  rw [parseSignature_fst]
  by_cases hread : io.targetBdev = true ∧ io.pageOk = true ∧ io.readResult = 0
  · -- the read succeeded: the switch's header goes out when the write succeeds
    obtain ⟨hb, hp, hr⟩ := hread
    generalize signatureOpChange a op (signatureKind a st.header) st.header = change
    obtain ⟨_ | header, result⟩ := change <;> by_cases hw : io.writeResult = 0 <;>
      simp [hb, hp, hr, hw]
  · -- a call before the read failed: nothing is written
    have hguard : (io.targetBdev && io.pageOk && io.readResult == 0 && io.writeResult == 0) = false := by
      simp only [Bool.and_eq_false_iff, beq_eq_false_iff_ne, ne_eq]
      by_cases hb : io.targetBdev = true <;> by_cases hp : io.pageOk = true <;> simp_all
    rw [hguard]
    cases hb : io.targetBdev <;> cases hp : io.pageOk <;> simp_all

theorem toiFileSignatureOp_fst_of_ok {io : FileIo} (hok : io.ok = true) (op : SignatureOp)
    (st : FileState) :
    (toiFileSignatureOp a io op st).1 =
      (signatureOpChange a op (signatureKind a st.header) st.header).2 := by
  simp only [FileIo.ok, Bool.and_eq_true, beq_iff_eq] at hok
  obtain ⟨⟨⟨⟨⟨hb, hp⟩, -⟩, hr⟩, hw⟩, hf⟩ := hok
  unfold toiFileSignatureOp
  dsimp only
  rw [parseSignature_fst]
  generalize signatureOpChange a op (signatureKind a st.header) st.header = change
  obtain ⟨_ | header, result⟩ := change <;> by_cases h0 : result = 0 <;> simp [hb, hp, hr, hw, hf, h0]

theorem toiFileSignatureOp_globals {io : FileIo} (hb : io.targetBdev = true)
    (hp : io.pageOk = true) (hr : io.readResult = 0) (op : SignatureOp) (st : FileState) :
    (toiFileSignatureOp a io op st).2.resumedBefore = (parseSignature a st.header st).2.resumedBefore ∧
      (toiFileSignatureOp a io op st).2.targetHeaderStart =
        (parseSignature a st.header st).2.targetHeaderStart := by
  unfold toiFileSignatureOp
  dsimp only
  generalize signatureOpChange a op (parseSignature a st.header st).1 st.header = change
  obtain ⟨_ | header, result⟩ := change <;> by_cases hw : io.writeResult = 0 <;> simp [hb, hp, hr, hw]

theorem toiFileWriteHeaderCleanup_header (io : FileIo) (b : Nat) (st : FileState) :
    (toiFileWriteHeaderCleanup a io b st).2.header =
      if io.chunkFinish == 0 && io.readResult == 0 && io.writeResult == 0 then
        prepareSignature a st.header b
      else st.header := by
  unfold toiFileWriteHeaderCleanup
  dsimp only
  by_cases hc : io.chunkFinish = 0 <;> by_cases hr : io.readResult = 0 <;>
    by_cases hw : io.writeResult = 0 <;> simp [hc, hr, hw]

theorem toiFileWriteHeaderCleanup_fst_of_ok {io : FileIo} (hok : io.ok = true) (b : Nat)
    (st : FileState) : (toiFileWriteHeaderCleanup a io b st).1 = 0 := by
  simp only [FileIo.ok, Bool.and_eq_true, beq_iff_eq] at hok
  obtain ⟨⟨⟨⟨⟨-, -⟩, hc⟩, hr⟩, hw⟩, hf⟩ := hok
  simp [toiFileWriteHeaderCleanup, hc, hr, hw, hf]

end Calls

/-! ### The header refines the image -/

section Refine

variable {a : Arch}

theorem image_of_kind_one {h : ToiFileHeader} (hk : signatureKind a h = 1) :
    h.image a = .image h.firstHeaderBlock (h.resumedBefore ≠ 0) := by
  simp only [ToiFileHeader.image, hk, if_true]

theorem image_ne_unknown {h : ToiFileHeader} (hk : signatureKind a h ≠ -1) : h.image a ≠ .unknown := by
  rcases signatureKind_cases (a := a) h with h1 | h1 | h1
  · exact absurd h1 hk
  · simp [ToiFileHeader.image, h1]
  · simp [ToiFileHeader.image, h1]

theorem image_ne_image {h : ToiFileHeader} (hk : signatureKind a h ≠ 1) (b : Nat) (r : Bool) :
    h.image a ≠ .image b r := by
  unfold ToiFileHeader.image
  split_ifs <;> simp_all

theorem image_eq_unknown {h : ToiFileHeader} (hk : signatureKind a h = -1) : h.image a = .unknown := by
  simp [ToiFileHeader.image, hk]

/-- `toi_file_image_exists` on an image, once the read succeeded, points `target_header_start`
at the image's first header block and sets `TOI_RESUMED_BEFORE` to its mark: what the resume
path then reads the image header from. -/
theorem toiFileImageExists_globals {io : FileIo} (hb : io.targetBdev = true)
    (hp : io.pageOk = true) (hr : io.readResult = 0) {st : FileState} {b : Nat} {m : Bool}
    (himage : st.header.image a = .image b m) :
    (toiFileImageExists a io st).2.targetHeaderStart = b ∧
      (toiFileImageExists a io st).2.resumedBefore = m := by
  have hk : signatureKind a st.header = 1 := by
    by_contra hk
    exact image_ne_image hk b m himage
  have hfields : FileImage.image st.header.firstHeaderBlock (st.header.resumedBefore ≠ 0) =
      .image b m := by
    rw [← himage, ToiFileHeader.image, if_pos hk]
  obtain ⟨hblock, hmark⟩ := FileImage.image.inj hfields
  obtain ⟨hres, hstart⟩ := toiFileSignatureOp_globals hb hp hr .getImageExists st
  refine ⟨?_, ?_⟩
  · rw [toiFileImageExists, hstart, parseSignature, if_pos hk]
    exact hblock
  · rw [toiFileImageExists, hres, parseSignature, if_pos hk]
    exact hmark

theorem image_step (hpos : 0 < a.sizeofLong) (hle : a.sizeofLong ≤ 9) (io : FileIo)
    (c : FileCall) (st : FileState) :
    (c.step a io st).2.header.image a =
      if c.lands io then (st.header.image a).step c else st.header.image a := by
  cases c with
  | writeHeaderCleanup b =>
    rw [FileCall.step, toiFileWriteHeaderCleanup_header, FileCall.lands]
    split
    · rw [image_prepareSignature hpos hle]
      rfl
    · rfl
  | imageExists =>
    simp only [FileCall.step, toiFileImageExists, toiFileSignatureOp_header, signatureOpChange,
      Option.getD_none, ite_self, FileImage.step_imageExists]
  | removeImage =>
    have hland : FileCall.removeImage.lands io =
        (io.targetBdev && io.pageOk && io.readResult == 0 && io.writeResult == 0) := rfl
    rw [FileCall.step, toiFileRemoveImage, toiFileSignatureOp_header, hland]
    split
    · by_cases hk : signatureKind a st.header = -1
      · -- a target the code does not know: nothing is written
        simp only [signatureOpChange, hk, if_true, Option.getD_none, image_eq_unknown hk,
          FileImage.step_removeImage_unknown]
      · simp only [signatureOpChange, hk, if_false, Option.getD_some]
        rw [image_invalidate hpos hle, FileImage.step_removeImage_of_ne (image_ne_unknown hk)]
    · rfl
  | markResumeAttempted m =>
    have hland : (FileCall.markResumeAttempted m).lands io =
        (io.targetBdev && io.pageOk && io.readResult == 0 && io.writeResult == 0) := rfl
    rw [FileCall.step, toiFileMarkResumeAttempted, toiFileSignatureOp_header, hland]
    split
    · by_cases hk : signatureKind a st.header = 1
      · -- an image: the mark is written
        rw [image_of_kind_one hk, FileImage.step_mark_image]
        cases m <;> simp [signatureOpChange, hk, image_resumedBefore hk]
      · -- no image: nothing is written
        rw [FileImage.step_mark_of_ne (image_ne_image hk)]
        cases m <;> simp [signatureOpChange, hk]
    · rfl

theorem FileCall.lands_of_ok {io : FileIo} (hok : io.ok = true) (c : FileCall) :
    c.lands io = true := by
  simp only [FileIo.ok, Bool.and_eq_true] at hok
  obtain ⟨⟨⟨⟨⟨hb, hp⟩, hc⟩, hr⟩, hw⟩, -⟩ := hok
  cases c <;> simp [FileCall.lands, hb, hp, hc, hr, hw]

theorem step_fst_of_ok {io : FileIo} (hok : io.ok = true) (c : FileCall) (st : FileState) :
    (c.step a io st).1 = (st.header.image a).answer c := by
  cases c with
  | writeHeaderCleanup b =>
    rw [FileCall.step, toiFileWriteHeaderCleanup_fst_of_ok hok]
    rfl
  | imageExists =>
    rw [FileCall.step, toiFileImageExists, toiFileSignatureOp_fst_of_ok hok,
      answer_image (Or.inl rfl)]
    rfl
  | removeImage =>
    rw [FileCall.step, toiFileRemoveImage, toiFileSignatureOp_fst_of_ok hok]
    by_cases hk : signatureKind a st.header = -1
    · simp [signatureOpChange, hk, image_eq_unknown hk, FileImage.answer]
    · rw [FileImage.answer_removeImage_of_ne (image_ne_unknown hk)]
      simp [signatureOpChange, hk]
  | markResumeAttempted m =>
    rw [FileCall.step, toiFileMarkResumeAttempted, toiFileSignatureOp_fst_of_ok hok,
      answer_image (Or.inr ⟨m, rfl⟩)]
    -- both marks return what `parse_signature` did, written or not
    cases m <;> simp only [signatureOpChange, Bool.false_eq_true, if_false, if_true] <;> split <;> rfl

theorem runCalls_image (hpos : 0 < a.sizeofLong) (hle : a.sizeofLong ≤ 9) :
    ∀ (calls : List (FileIo × FileCall)) (st : FileState),
      (runCalls a calls st).2.header.image a =
        (FileImage.run ((calls.filter fun c => c.2.lands c.1).map Prod.snd) (st.header.image a)).2
  | [], _ => rfl
  | (io, c) :: cs, st => by
    rw [runCalls]
    dsimp only
    rw [runCalls_image hpos hle cs, image_step hpos hle io c st]
    by_cases hl : c.lands io = true
    · simp only [List.filter_cons, hl, if_true, List.map_cons, FileImage.run]
    · simp only [List.filter_cons, hl, Bool.false_eq_true, if_false]

theorem runCalls_answers_of_ok (hpos : 0 < a.sizeofLong) (hle : a.sizeofLong ≤ 9) :
    ∀ (calls : List (FileIo × FileCall)) (st : FileState), (∀ c ∈ calls, c.1.ok = true) →
      (runCalls a calls st).1 = (FileImage.run (calls.map Prod.snd) (st.header.image a)).1
  | [], _, _ => rfl
  | (io, c) :: cs, st, hok => by
    have hio : io.ok = true := hok (io, c) List.mem_cons_self
    have hnext : (c.step a io st).2.header.image a = (st.header.image a).step c := by
      rw [image_step hpos hle, if_pos (FileCall.lands_of_ok hio c)]
    have ih := runCalls_answers_of_ok hpos hle cs (c.step a io st).2
      (fun x hx => hok x (List.mem_cons_of_mem _ hx))
    rw [runCalls, List.map_cons, FileImage.run]
    dsimp only
    rw [step_fst_of_ok hio, ih, hnext]

end Refine

/-- The file allocator's signature refines the three-state image: over any run of
`toi_file_write_header_cleanup`, `toi_file_image_exists`, `toi_file_remove_image` and
`toi_file_mark_resume_attempted`, with any results of their I/O, the first block of the target
holds the image the abstract machine reaches by the calls whose write lands; and when every
call's I/O succeeds, every call returns the abstract machine's answer. -/
theorem file_signature_refines_image (a : Arch) (hpos : 0 < a.sizeofLong)
    (hle : a.sizeofLong ≤ 9) (calls : List (FileIo × FileCall)) (st : FileState) :
    (runCalls a calls st).2.header.image a =
        (FileImage.run ((calls.filter fun c => c.2.lands c.1).map Prod.snd) (st.header.image a)).2 ∧
      ((∀ c ∈ calls, c.1.ok = true) →
        (runCalls a calls st).1 = (FileImage.run (calls.map Prod.snd) (st.header.image a)).1) :=
  ⟨runCalls_image hpos hle calls st, runCalls_answers_of_ok hpos hle calls st⟩

/-- A target that `mkfs` left with the old `NoImage` signature. -/
def noImageTarget : FileState := ⟨⟨noImage ++ [0, 0], 0, 0, 0⟩, false, 0⟩

/-- Every call's I/O succeeds. -/
def allIoSucceeds : FileIo := ⟨true, true, 0, 0, 0, 0⟩

/-- One cycle: the image written with its header from block `7`, found, marked, removed, and
asked for again. -/
def oneCycle : List (FileIo × FileCall) :=
  [(allIoSucceeds, .writeHeaderCleanup 7), (allIoSucceeds, .imageExists),
    (allIoSucceeds, .markResumeAttempted true), (allIoSucceeds, .removeImage),
    (allIoSucceeds, .imageExists)]

theorem file_signature_one_cycle_x86_64 :
    (runCalls .x86_64 oneCycle noImageTarget).1 = [0, 1, 1, 1, 0] ∧
      (runCalls .x86_64 oneCycle noImageTarget).2.header.image .x86_64 = .noImage := by
  have h := file_signature_refines_image .x86_64 (by decide) (by decide) oneCycle noImageTarget
  refine ⟨?_, ?_⟩
  · rw [h.2 (by decide)]
    decide
  · rw [h.1]
    decide

end TuxOnIceFastboot.Alloc.File
