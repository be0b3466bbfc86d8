import TuxOnIceFastboot.Extent.Serialise

/-!
# The swap signature (`parse_signature`, `write_modified_signature`)

The swap allocator marks its image in the swap header page of the resume device. The page is a
`union diskpage`: `struct sig_data` at its start, and the ten bytes of `swh.magic.magic` at its
end. `write_modified_signature(IMAGE_SIGNATURE)` keeps the first `sizeof(struct sig_data)` bytes
of the page in `no_image_signature_contents`, writes `sig_data` (the device and sector of the
first header page, `resume_attempted = 0` and `orig_sig_type = parse_signature()`) and puts
`tuxonice_signature` over the magic. `TRIED_RESUME` and `NO_TRIED_RESUME` set
`resume_attempted`, and `NO_IMAGE_SIGNATURE` puts back the magic `orig_sig_type` names and the
bytes of `no_image_signature_contents`.

Those bytes do not come from the page that was signed. `toi_swap_write_header_init` writes
`no_image_signature_contents` into the image header before `write_header_cleanup` signs the page,
and the next kernel's `toi_swap_read_header_init` reloads them from there. So the page left by
`toi_swap_remove_image` is the original page with its first `sizeof(struct sig_data)` bytes
replaced by what the buffer held when the header was written: zeros in a kernel that has not
signed a page before (`swap_signature_cycle_restores_header_copy`). In between, every
`parse_signature` finds the image, its first header page and the last mark.

The resume device is its pages, by block: the swap header page is block `resume_firstblock`, and
`headerblock << 3` is block `headerblock`. The header is on the resume device
(`header_dev_t == resume_swap_dev_t`). The page allocations and the block reads and writes
succeed.
-/

namespace TuxOnIceFastboot.Alloc.Swap

open TuxOnIceFastboot.Lib TuxOnIceFastboot.Extent

/-! ### The swap header page -/

section Layout

variable (a : Arch)

/-- The offset of `sector` in `struct sig_data`: after the four bytes of `dev_t device`, aligned
to an `unsigned long`. -/
def sectorOffset : Nat := a.sizeofLong

/-- The offset of `int resume_attempted`. -/
def resumeAttemptedOffset : Nat := 2 * a.sizeofLong

/-- The offset of `int orig_sig_type`. -/
def origSigTypeOffset : Nat := 2 * a.sizeofLong + a.sizeofInt

/-- `sizeof(struct sig_data)`. -/
def sigDataSize : Nat := 2 * a.sizeofLong + 2 * a.sizeofInt

/-- The offset of `swh.magic.magic`, the last ten bytes of the page. -/
def magicOffset : Nat := a.pageSize - 10

end Layout

/-- `"SWAP-SPACE"`. -/
def swapSpace : List UInt8 := ['S', 'W', 'A', 'P', '-', 'S', 'P', 'A', 'C', 'E'].map Char.toUInt8

/-- `"SWAPSPACE2"`. -/
def swapSpace2 : List UInt8 := ['S', 'W', 'A', 'P', 'S', 'P', 'A', 'C', 'E', '2'].map Char.toUInt8

/-- `sigs[]` of `parse_signature`: `"SWAP-SPACE"`, `"SWAPSPACE2"`, `"S1SUSP"`, `"S2SUSP"` and
`"S1SUSPEND"`. -/
def sigs : List (List UInt8) :=
  [swapSpace, swapSpace2, ['S', '1', 'S', 'U', 'S', 'P'].map Char.toUInt8,
    ['S', '2', 'S', 'U', 'S', 'P'].map Char.toUInt8,
    ['S', '1', 'S', 'U', 'S', 'P', 'E', 'N', 'D'].map Char.toUInt8]

/-- `tuxonice_signature`, `"\xed\xc3\x02\xe9\x98\x56\xe5\x0c"` and its terminating zero. The
signature code copies and compares `sizeof(tuxonice_signature)` bytes of it, the size of a
`char *`. -/
def tuxoniceSignature : List UInt8 := [0xed, 0xc3, 0x02, 0xe9, 0x98, 0x56, 0xe5, 0x0c, 0]

/-- The static state of `tuxonice_swap.c` that the signature reads and writes: the pages of the
resume device, `current_signature_page` (`none` while it is `NULL`),
`no_image_signature_contents`, and what `parse_signature` sets: `header_dev_t`, `headerblock`
and `TOI_RESUMED_BEFORE`. -/
structure SignatureState where
  disk : Nat → List UInt8
  currentSignaturePage : Option (List UInt8)
  noImageSignatureContents : List UInt8
  headerDevT : Nat
  headerblock : Nat
  resumedBefore : Bool

/-- The `modification`s of `write_modified_signature`; `IMAGE_SIGNATURE` records the device and
sector of the first header page, which `toi_writer_posn` gives it. -/
inductive SignatureModification
  | imageSignature (device sector : Nat)
  | noImageSignature
  | triedResume
  | noTriedResume
  deriving DecidableEq, Repr

section Signature

variable (a : Arch) (resumeFirstblock : Nat)

/-- The state of a kernel as it boots on a device holding `disk`: the statics are zero. -/
def SignatureState.boot (disk : Nat → List UInt8) : SignatureState :=
  ⟨disk, none, List.replicate (sigDataSize a) 0, 0, 0, false⟩

/-- `get_current_signature()`: the swap header page read into `current_signature_page`. -/
def getCurrentSignature (s : SignatureState) : SignatureState :=
  { s with currentSignaturePage := some (s.disk resumeFirstblock) }

/-- `parse_signature()`. -/
def parseSignature (s : SignatureState) : Int × SignatureState :=
  let s := getCurrentSignature resumeFirstblock s
  let page := s.disk resumeFirstblock
  let swapHeader := readAt page (magicOffset a) 10
  match sigs.findIdx? fun sig => swapHeader.take sig.length == sig with
  | some type => (type, s)
  | none =>
    if swapHeader.take a.sizeofLong ≠ tuxoniceSignature.take a.sizeofLong then (-1, s)
    else
      (10, { s with
        headerDevT := leValue (readAt page 0 4)
        resumedBefore := intOfBytes a (readAt page (resumeAttemptedOffset a) a.sizeofInt) ≠ 0
        headerblock := leValue (readAt page (sectorOffset a) a.sizeofLong) })

/-- The page `write_modified_signature(modification)` writes, made from the page it read, and the
state its `IMAGE_SIGNATURE` case leaves. -/
def modifySignaturePage (page : List UInt8) (s : SignatureState) :
    SignatureModification → List UInt8 × SignatureState
  | .imageSignature device sector =>
    let s := { s with noImageSignatureContents := page.take (sigDataSize a) }
    let origSigType := parseSignature a resumeFirstblock s
    let page := writeAt page 0 (leBytes 4 device)
    let page := writeAt page (sectorOffset a) (longBytes a sector)
    let page := writeAt page (resumeAttemptedOffset a) (intBytes a 0)
    let page := writeAt page (origSigTypeOffset a) (intBytes a origSigType.1)
    (writeAt page (magicOffset a) (tuxoniceSignature.take a.sizeofLong), origSigType.2)
  | .noImageSignature =>
    let origSig :=
      if intOfBytes a (readAt page (origSigTypeOffset a) a.sizeofInt) = 0 then swapSpace
      else swapSpace2
    let page := writeAt page (magicOffset a) origSig
    (writeAt page 0 s.noImageSignatureContents, s)
  | .triedResume => (writeAt page (resumeAttemptedOffset a) (intBytes a 1), s)
  | .noTriedResume => (writeAt page (resumeAttemptedOffset a) (intBytes a 0), s)

/-- `write_modified_signature(modification)`: the modified copy of the page is written back, and
becomes `current_signature_page`. -/
def writeModifiedSignature (modification : SignatureModification) (s : SignatureState) :
    Int × SignatureState :=
  let s := getCurrentSignature resumeFirstblock s
  let r := modifySignaturePage a resumeFirstblock (s.disk resumeFirstblock) s modification
  (0, { r.2 with
    disk := Function.update r.2.disk resumeFirstblock r.1
    currentSignaturePage := some r.1 })

/-- The first header page as `toi_swap_write_header_init` starts it and
`write_header_chunk_finish` writes it to block `headerBlock`: `no_image_signature_contents`, then
the rest of the header's data. -/
def writeHeaderFirstPage (headerBlock : Nat) (rest : List UInt8) (s : SignatureState) :
    SignatureState :=
  { s with disk := Function.update s.disk headerBlock (s.noImageSignatureContents ++ rest) }

/-- `toi_swap_read_header_init()`, as far as `no_image_signature_contents` goes. -/
def toiSwapReadHeaderInit (s : SignatureState) : Int × SignatureState :=
  if s.headerDevT = 0 then (-EINVAL, s)
  else (0, { s with noImageSignatureContents := (s.disk s.headerblock).take (sigDataSize a) })

/-- `toi_swap_mark_resume_attempted(mark)`. -/
def toiSwapMarkResumeAttempted (mark : Bool) (s : SignatureState) : Int × SignatureState :=
  writeModifiedSignature a resumeFirstblock (if mark then .triedResume else .noTriedResume) s

/-- `toi_swap_remove_image()`: `toi_swap_image_exists(1)` is `1` when `parse_signature` returns
`10`. -/
def toiSwapRemoveImage (s : SignatureState) : Int × SignatureState :=
  let found := parseSignature a resumeFirstblock s
  if found.1 = 10 then writeModifiedSignature a resumeFirstblock .noImageSignature found.2
  else (0, found.2)

end Signature

/-! ### The signed page -/

section Signed

variable (a : Arch)

/-- What the signature code assumes of the machine: an `unsigned long` of four to eight bytes,
an `int` of at least one, and a page that holds `struct sig_data` before the magic. -/
structure SigLayout : Prop where
  long_ge : 4 ≤ a.sizeofLong
  long_le : a.sizeofLong ≤ 8
  int_pos : 0 < a.sizeofInt
  fits : sigDataSize a + 10 ≤ a.pageSize

/-- `page` with the fields of `struct sig_data` written over its start, one after the other. -/
def sigDataPage (page : List UInt8) (device sector : Nat) (resume : Bool) (origSigType : Int) :
    List UInt8 :=
  writeAt (writeAt (writeAt (writeAt page 0 (leBytes 4 device)) (sectorOffset a)
    (longBytes a sector)) (resumeAttemptedOffset a) (intBytes a (if resume then 1 else 0)))
    (origSigTypeOffset a) (intBytes a origSigType)

/-- The swap header page `page` as `IMAGE_SIGNATURE` leaves it, with `resume_attempted` as the
last mark set it. -/
def signedPage (page : List UInt8) (device sector : Nat) (resume : Bool) (origSigType : Int) :
    List UInt8 :=
  writeAt (sigDataPage a page device sector resume origSigType) (magicOffset a)
    (tuxoniceSignature.take a.sizeofLong)

variable {a}

theorem SigLayout.offsets (hL : SigLayout a) :
    4 ≤ sectorOffset a ∧ sectorOffset a + a.sizeofLong = resumeAttemptedOffset a ∧
      resumeAttemptedOffset a + a.sizeofInt = origSigTypeOffset a ∧
      origSigTypeOffset a + a.sizeofInt = sigDataSize a ∧ sigDataSize a + 10 ≤ a.pageSize ∧
      magicOffset a + 10 = a.pageSize := by
  have := hL.long_ge
  have := hL.fits
  unfold sectorOffset resumeAttemptedOffset origSigTypeOffset sigDataSize magicOffset at *
  omega

theorem SigLayout.length_signature (hL : SigLayout a) :
    (tuxoniceSignature.take a.sizeofLong).length = a.sizeofLong := by
  have := hL.long_le
  simp only [List.length_take, tuxoniceSignature, List.length_cons, List.length_nil]
  omega

theorem SigLayout.intOfBytes_intBytes (hL : SigLayout a) {x : Int} (h0 : 0 ≤ x) (h1 : x ≤ 1) :
    intOfBytes a (intBytes a x) = x := by
  -- an `int` has at least eight bits
  have hI : (2 : Int) ^ 8 ≤ 2 ^ (8 * a.sizeofInt) := by
    have := Nat.pow_le_pow_right (n := 2) (by decide)
      (show 8 ≤ 8 * a.sizeofInt by have := hL.int_pos; omega)
    exact_mod_cast this
  apply Extent.intOfBytes_intBytes <;> omega

variable {page : List UInt8} {device sector : Nat} {resume : Bool} {origSigType : Int}

theorem length_sigDataPage (hL : SigLayout a) (hpage : page.length = a.pageSize) :
    (sigDataPage a page device sector resume origSigType).length = a.pageSize := by
  obtain ⟨h4, hsec, hres, horig, hfits, -⟩ := hL.offsets
  simp only [sigDataPage, length_writeAt_eq, length_leBytes, length_longBytes, length_intBytes,
    hpage]
  omega

theorem readAt_sigDataPage (hL : SigLayout a) (hpage : page.length = a.pageSize) :
    readAt (sigDataPage a page device sector resume origSigType) 0 4 = leBytes 4 device ∧
      readAt (sigDataPage a page device sector resume origSigType) (sectorOffset a) a.sizeofLong =
        longBytes a sector ∧
      readAt (sigDataPage a page device sector resume origSigType) (resumeAttemptedOffset a)
        a.sizeofInt = intBytes a (if resume then 1 else 0) ∧
      readAt (sigDataPage a page device sector resume origSigType) (origSigTypeOffset a)
        a.sizeofInt = intBytes a origSigType := by
  obtain ⟨h4, hsec, hres, horig, hfits, -⟩ := hL.offsets
  unfold sigDataPage
  refine ⟨?_, ?_, ?_, ?_⟩
  · rw [readAt_writeAt_of_disjoint ?_ (Or.inl ?_), readAt_writeAt_of_disjoint ?_ (Or.inl ?_),
      readAt_writeAt_of_disjoint ?_ (Or.inl ?_), readAt_writeAt_of_length ?_ (length_leBytes 4 device)]
    all_goals
      (try simp only [length_writeAt_eq, length_leBytes, length_longBytes, length_intBytes, hpage])
      omega
  · rw [readAt_writeAt_of_disjoint ?_ (Or.inl ?_), readAt_writeAt_of_disjoint ?_ (Or.inl ?_),
      readAt_writeAt_of_length ?_ (length_longBytes sector)]
    all_goals
      (try simp only [length_writeAt_eq, length_leBytes, length_longBytes, length_intBytes, hpage])
      omega
  · rw [readAt_writeAt_of_disjoint ?_ (Or.inl ?_), readAt_writeAt_of_length ?_ (length_intBytes _)]
    all_goals
      (try simp only [length_writeAt_eq, length_leBytes, length_longBytes, length_intBytes, hpage])
      omega
  · rw [readAt_writeAt_of_length ?_ (length_intBytes _)]
    simp only [length_writeAt_eq, length_leBytes, length_longBytes, length_intBytes, hpage]
    omega

theorem readAt_signedPage_of_le (hL : SigLayout a) (hpage : page.length = a.pageSize)
    {q len : Nat} (h : q + len ≤ magicOffset a) :
    readAt (signedPage a page device sector resume origSigType) q len =
      readAt (sigDataPage a page device sector resume origSigType) q len := by
  obtain ⟨-, -, -, -, -, hmag⟩ := hL.offsets
  have hlong := hL.long_le
  exact readAt_writeAt_of_disjoint
    (by rw [hL.length_signature, length_sigDataPage hL hpage]; omega) (Or.inl h)

theorem readAt_signedPage_magic (hL : SigLayout a) (hpage : page.length = a.pageSize) :
    readAt (signedPage a page device sector resume origSigType) (magicOffset a) 10 =
      tuxoniceSignature.take a.sizeofLong ++
        readAt (sigDataPage a page device sector resume origSigType)
          (magicOffset a + a.sizeofLong) (10 - a.sizeofLong) := by
  obtain ⟨-, -, -, -, -, hmag⟩ := hL.offsets
  have hlong := hL.long_le
  rw [signedPage, readAt_writeAt_start
    (by rw [hL.length_signature, length_sigDataPage hL hpage]; omega)
    (by rw [hL.length_signature]; omega), hL.length_signature]

theorem writeAt_sigDataPage_cover (hL : SigLayout a) (hpage : page.length = a.pageSize)
    {B : List UInt8} (hB : B.length = sigDataSize a) :
    writeAt (sigDataPage a page device sector resume origSigType) 0 B = writeAt page 0 B := by
  obtain ⟨h4, hsec, hres, horig, hfits, -⟩ := hL.offsets
  unfold sigDataPage
  rw [writeAt_writeAt_of_cover ?_ ?_ ?_ ?_, writeAt_writeAt_of_cover ?_ ?_ ?_ ?_,
    writeAt_writeAt_of_cover ?_ ?_ ?_ ?_, writeAt_writeAt_of_cover ?_ ?_ ?_ ?_]
  all_goals
    (try simp only [length_writeAt_eq, length_leBytes, length_longBytes, length_intBytes, hpage, hB])
    omega

theorem writeAt_signedPage_resume (hL : SigLayout a) (hpage : page.length = a.pageSize)
    (mark : Bool) :
    writeAt (signedPage a page device sector resume origSigType) (resumeAttemptedOffset a)
      (intBytes a (if mark then 1 else 0)) = signedPage a page device sector mark origSigType := by
  obtain ⟨h4, hsec, hres, horig, hfits, hmag⟩ := hL.offsets
  have hT := hL.length_signature
  have hlong := hL.long_le
  let Y := writeAt (writeAt page 0 (leBytes 4 device)) (sectorOffset a) (longBytes a sector)
  have hY : Y.length = a.pageSize := by
    simp only [Y, length_writeAt_eq, length_leBytes, length_longBytes, hpage]
    omega
  let R := intBytes a (if resume then 1 else 0)
  let R' := intBytes a (if mark then 1 else 0)
  let O := intBytes a origSigType
  let T := tuxoniceSignature.take a.sizeofLong
  have hR : R.length = a.sizeofInt := length_intBytes _
  have hR' : R'.length = a.sizeofInt := length_intBytes _
  have hO : O.length = a.sizeofInt := length_intBytes _
  have hT' : T.length = a.sizeofLong := hT
  have hZ : (writeAt Y (resumeAttemptedOffset a) R).length = a.pageSize := by
    rw [length_writeAt (by omega), hY]
  have hX : (writeAt (writeAt Y (resumeAttemptedOffset a) R) (origSigTypeOffset a) O).length =
      a.pageSize := by
    rw [length_writeAt (by omega), hZ]
  -- the new field goes under the magic, then under `orig_sig_type`, onto the old field
  have h1 := @writeAt_comm _ (writeAt (writeAt Y (resumeAttemptedOffset a) R) (origSigTypeOffset a) O)
    R' (resumeAttemptedOffset a) T (magicOffset a) (by omega) (by omega)
  have h2 := @writeAt_comm _ (writeAt Y (resumeAttemptedOffset a) R) R' (resumeAttemptedOffset a) O
    (origSigTypeOffset a) (by omega) (by omega)
  have h3 := @writeAt_writeAt_of_cover _ Y R (resumeAttemptedOffset a) R' (resumeAttemptedOffset a)
    (by omega) le_rfl (by omega) (by omega)
  show writeAt (writeAt (writeAt (writeAt Y (resumeAttemptedOffset a) R) (origSigTypeOffset a) O)
      (magicOffset a) T) (resumeAttemptedOffset a) R' =
    writeAt (writeAt (writeAt Y (resumeAttemptedOffset a) R') (origSigTypeOffset a) O) (magicOffset a) T
  rw [← h1, ← h2, h3]

theorem restore_signedPage (hL : SigLayout a) (hpage : page.length = a.pageSize)
    {B : List UInt8} (hB : B.length = sigDataSize a) :
    writeAt (writeAt (signedPage a page device sector resume origSigType) (magicOffset a)
      (readAt page (magicOffset a) 10)) 0 B = writeAt page 0 B := by
  obtain ⟨-, -, -, -, hfits, hmag⟩ := hL.offsets
  have hT := hL.length_signature
  have hlong := hL.long_le
  have hX := @length_sigDataPage a page device sector resume origSigType hL hpage
  have hM : (readAt page (magicOffset a) 10).length = 10 := by
    simp only [readAt, List.length_take, List.length_drop, hpage]
    omega
  -- the page's magic hides the signature, and moves out from under `B`
  have h1 := @writeAt_writeAt_of_cover _ (sigDataPage a page device sector resume origSigType)
    (tuxoniceSignature.take a.sizeofLong) (magicOffset a) (readAt page (magicOffset a) 10)
    (magicOffset a) (by omega) le_rfl (by omega) (by omega)
  have h2 := @writeAt_comm _ (sigDataPage a page device sector resume origSigType) B 0
    (readAt page (magicOffset a) 10) (magicOffset a) (by omega) (by omega)
  have h3 := @writeAt_comm _ page B 0 (readAt page (magicOffset a) 10) (magicOffset a)
    (by omega) (by omega)
  rw [signedPage, h1, ← h2, writeAt_sigDataPage_cover hL hpage hB, h3,
    writeAt_readAt_self (by omega)]

end Signed

/-! ### The calls on the page -/

section Calls

variable {a : Arch} {r : Nat} {s : SignatureState} {page : List UInt8} {device sector : Nat}
  {resume : Bool} {origSigType : Int}

theorem sigs_findIdx?_of_head (rest : List UInt8) :
    sigs.findIdx? (fun sig => ((0xed : UInt8) :: rest).take sig.length == sig) = none := by
  have hS : (0xed : UInt8) ≠ 'S'.toUInt8 := by decide
  simp [sigs, swapSpace, swapSpace2, List.findIdx?_cons, hS]

@[simp] theorem parseSignature_disk : (parseSignature a r s).2.disk = s.disk := by
  unfold parseSignature
  dsimp only
  split
  · rfl
  · split <;> rfl

theorem parseSignature_of_findIdx {t : Nat}
    (h : sigs.findIdx? (fun sig => (readAt (s.disk r) (magicOffset a) 10).take sig.length == sig) =
      some t) :
    parseSignature a r s = ((t : Int), getCurrentSignature r s) := by
  unfold parseSignature
  simp only [getCurrentSignature, h]

theorem parseSignature_signedPage (hL : SigLayout a) (hpage : page.length = a.pageSize)
    (hdisk : s.disk r = signedPage a page device sector resume origSigType)
    (hdevice : device < 2 ^ 32) (hsector : sector < 2 ^ a.longBits) :
    parseSignature a r s = (10, { getCurrentSignature r s with
      headerDevT := device, resumedBefore := resume, headerblock := sector }) := by
  obtain ⟨h4, hsec, hres, horig, hfits, hmag⟩ := hL.offsets
  obtain ⟨hdev, hsect, hmark, -⟩ := @readAt_sigDataPage a page device sector resume origSigType hL hpage
  have hmagic := @readAt_signedPage_magic a page device sector resume origSigType hL hpage
  -- the magic starts with `0xed`, so no entry of `sigs[]` matches
  obtain ⟨k, hk⟩ : ∃ k, a.sizeofLong = k + 1 := ⟨a.sizeofLong - 1, by have := hL.long_ge; omega⟩
  have hnone : sigs.findIdx? (fun sig =>
      (readAt (signedPage a page device sector resume origSigType) (magicOffset a) 10).take
        sig.length == sig) = none := by
    rw [hmagic, hk, tuxoniceSignature, List.take_succ_cons, List.cons_append]
    exact sigs_findIdx?_of_head _
  have hsig : (readAt (signedPage a page device sector resume origSigType) (magicOffset a) 10).take
      a.sizeofLong = tuxoniceSignature.take a.sizeofLong := by
    rw [hmagic, List.take_left' hL.length_signature]
  -- the fields below the magic
  have hdevR := @readAt_signedPage_of_le a page device sector resume origSigType hL hpage 0 4
    (by omega)
  have hsectR := @readAt_signedPage_of_le a page device sector resume origSigType hL hpage
    (sectorOffset a) a.sizeofLong (by omega)
  have hmarkR := @readAt_signedPage_of_le a page device sector resume origSigType hL hpage
    (resumeAttemptedOffset a) a.sizeofInt (by omega)
  have hresume : intOfBytes a (intBytes a (if resume then 1 else 0)) = if resume then 1 else 0 :=
    hL.intOfBytes_intBytes (by split <;> omega) (by split <;> omega)
  unfold parseSignature
  simp only [getCurrentSignature, hdisk, hnone, hsig, ne_eq, not_true_eq_false, if_false]
  rw [hdevR, hsectR, hmarkR, hdev, hsect, hmark, hresume, leValue_leBytes_of_lt hdevice,
    show leValue (longBytes a sector) = sector from longOfBytes_longBytes hsector]
  cases resume <;> rfl

theorem modifySignaturePage_imageSignature {t : Nat} (hdisk : s.disk r = page)
    (ht : sigs.findIdx? (fun sig => (readAt page (magicOffset a) 10).take sig.length == sig) =
      some t) :
    modifySignaturePage a r page s (.imageSignature device sector) =
      (signedPage a page device sector false t,
        getCurrentSignature r { s with noImageSignatureContents := page.take (sigDataSize a) }) := by
  have hparse := parseSignature_of_findIdx (a := a) (r := r)
    (s := { s with noImageSignatureContents := page.take (sigDataSize a) }) (by rw [hdisk]; exact ht)
  simp only [modifySignaturePage, hparse]
  rfl

theorem modifySignaturePage_mark (hL : SigLayout a) (hpage : page.length = a.pageSize)
    (mark : Bool) :
    modifySignaturePage a r (signedPage a page device sector resume origSigType) s
      (if mark then .triedResume else .noTriedResume) =
      (signedPage a page device sector mark origSigType, s) := by
  rw [← writeAt_signedPage_resume hL hpage mark]
  cases mark <;> rfl

theorem modifySignaturePage_noImageSignature (hL : SigLayout a) (hpage : page.length = a.pageSize)
    {t : Nat} (ht : t ≤ 1)
    (hmagic : (if (t : Int) = 0 then swapSpace else swapSpace2) = readAt page (magicOffset a) 10)
    (hB : s.noImageSignatureContents.length = sigDataSize a) :
    modifySignaturePage a r (signedPage a page device sector resume t) s .noImageSignature =
      (writeAt page 0 s.noImageSignatureContents, s) := by
  obtain ⟨-, -, -, horig, hfits, hmag⟩ := hL.offsets
  obtain ⟨-, -, -, horigRead⟩ := @readAt_sigDataPage a page device sector resume t hL hpage
  have horig' : intOfBytes a (readAt (signedPage a page device sector resume t)
      (origSigTypeOffset a) a.sizeofInt) = t := by
    rw [readAt_signedPage_of_le hL hpage (by omega), horigRead]
    exact hL.intOfBytes_intBytes (by omega) (by omega)
  simp only [modifySignaturePage, horig', hmagic]
  rw [restore_signedPage hL hpage hB]

theorem writeModifiedSignature_eq {m : SignatureModification} {page' : List UInt8}
    {s' : SignatureState}
    (h : modifySignaturePage a r (s.disk r) (getCurrentSignature r s) m = (page', s')) :
    writeModifiedSignature a r m s =
      (0, { s' with disk := Function.update s'.disk r page', currentSignaturePage := some page' }) := by
  have h' : modifySignaturePage a r ((getCurrentSignature r s).disk r) (getCurrentSignature r s) m =
      (page', s') := h
  unfold writeModifiedSignature
  dsimp only
  rw [h']

theorem toiSwapReadHeaderInit_of_ne (h : s.headerDevT ≠ 0) :
    toiSwapReadHeaderInit a s =
      (0, { s with noImageSignatureContents := (s.disk s.headerblock).take (sigDataSize a) }) := by
  unfold toiSwapReadHeaderInit
  rw [if_neg h]

theorem foldl_markResumeAttempted (hL : SigLayout a) (hpage : page.length = a.pageSize) :
    ∀ (marks : List Bool) (s : SignatureState) (resume : Bool),
      s.disk r = signedPage a page device sector resume origSigType →
      (marks.foldl (fun s mark => (toiSwapMarkResumeAttempted a r mark s).2) s).disk r =
          signedPage a page device sector (marks.getLast?.getD resume) origSigType ∧
        (marks.foldl (fun s mark => (toiSwapMarkResumeAttempted a r mark s).2)
          s).noImageSignatureContents = s.noImageSignatureContents
  | [], _, _, hdisk => ⟨hdisk, rfl⟩
  | mark :: marks, s, resume, hdisk => by
    have hstep : toiSwapMarkResumeAttempted a r mark s =
        (0, { getCurrentSignature r s with
          disk := Function.update s.disk r (signedPage a page device sector mark origSigType)
          currentSignaturePage := some (signedPage a page device sector mark origSigType) }) := by
      unfold toiSwapMarkResumeAttempted
      exact @writeModifiedSignature_eq a r s _ _ (getCurrentSignature r s)
        (by rw [hdisk]; exact modifySignaturePage_mark hL hpage mark)
    obtain ⟨hpage', hcontents⟩ := foldl_markResumeAttempted hL hpage marks
      (toiSwapMarkResumeAttempted a r mark s).2 mark (by rw [hstep]; exact Function.update_self ..)
    rw [List.foldl_cons, hpage', hcontents, hstep, List.getLast?_cons, Option.getD_some]
    exact ⟨rfl, rfl⟩

theorem toiSwapRemoveImage_signedPage (hL : SigLayout a) (hpage : page.length = a.pageSize)
    {t : Nat} (ht : t ≤ 1)
    (hmagic : (if (t : Int) = 0 then swapSpace else swapSpace2) = readAt page (magicOffset a) 10)
    (hdisk : s.disk r = signedPage a page device sector resume t)
    (hdevice : device < 2 ^ 32) (hsector : sector < 2 ^ a.longBits)
    (hB : s.noImageSignatureContents.length = sigDataSize a) :
    (toiSwapRemoveImage a r s).2.disk r = writeAt page 0 s.noImageSignatureContents := by
  have hfound := parseSignature_signedPage hL hpage hdisk hdevice hsector
  have hremoved : toiSwapRemoveImage a r s =
      writeModifiedSignature a r .noImageSignature (parseSignature a r s).2 := by
    unfold toiSwapRemoveImage
    rw [if_pos (by rw [hfound])]
  -- the state `parse_signature` leaves keeps the page and `no_image_signature_contents`
  have hmodify : modifySignaturePage a r ((parseSignature a r s).2.disk r)
      (getCurrentSignature r (parseSignature a r s).2) .noImageSignature =
      (writeAt page 0 s.noImageSignatureContents, getCurrentSignature r (parseSignature a r s).2) := by
    rw [parseSignature_disk, hdisk, hfound]
    exact modifySignaturePage_noImageSignature hL hpage ht hmagic hB
  rw [hremoved, writeModifiedSignature_eq hmodify]
  exact Function.update_self ..

/-! ### A hibernation cycle -/

/-- The first kernel: `toi_swap_write_header_init` puts `no_image_signature_contents` at the
start of the first header page, then `IMAGE_SIGNATURE` signs the swap header page with that
page's block. -/
theorem imageSignature_after_header {t headerBlock : Nat} {rest : List UInt8}
    (hdisk : s.disk r = page) (hblock : headerBlock ≠ r)
    (ht : sigs.findIdx? (fun sig => (readAt page (magicOffset a) 10).take sig.length == sig) =
      some t) :
    let signed := writeModifiedSignature a r (.imageSignature device headerBlock)
      (writeHeaderFirstPage headerBlock rest s)
    signed.1 = 0 ∧ signed.2.disk r = signedPage a page device headerBlock false t ∧
      signed.2.disk headerBlock = s.noImageSignatureContents ++ rest := by
  intro signed
  have hs₁ : (writeHeaderFirstPage headerBlock rest s).disk r = page := by
    simp only [writeHeaderFirstPage, Function.update_of_ne (Ne.symm hblock), hdisk]
  have hsigned : signed = _ := writeModifiedSignature_eq
    (modifySignaturePage_imageSignature rfl (by rw [hs₁]; exact ht))
  refine ⟨by rw [hsigned], ?page, ?header⟩
  case page =>
    rw [hsigned]
    dsimp only
    rw [Function.update_self, hs₁]
  case header =>
    rw [hsigned]
    simp [Function.update_of_ne hblock, writeHeaderFirstPage, getCurrentSignature]

theorem readHeaderInit_after_boot (hL : SigLayout a) (hpage : page.length = a.pageSize)
    {disk : Nat → List UInt8} (hdisk : disk r = signedPage a page device sector false origSigType)
    (hdevice : 0 < device ∧ device < 2 ^ 32) (hsector : sector < 2 ^ a.longBits) :
    let booted := parseSignature a r (SignatureState.boot a disk)
    let loaded := toiSwapReadHeaderInit a booted.2
    booted.1 = 10 ∧ loaded.1 = 0 ∧ loaded.2.disk = disk ∧
      loaded.2.noImageSignatureContents = (disk sector).take (sigDataSize a) := by
  intro booted loaded
  have hbooted : booted = _ := parseSignature_signedPage (s := SignatureState.boot a disk)
    hL hpage hdisk hdevice.2 hsector
  have hloaded : loaded = _ := toiSwapReadHeaderInit_of_ne (a := a) (s := booted.2)
    (by rw [hbooted]; exact Nat.pos_iff_ne_zero.mp hdevice.1)
  refine ⟨by rw [hbooted], by rw [hloaded], ?disk, ?copy⟩
  case disk =>
    rw [hloaded, hbooted]
    rfl
  case copy =>
    rw [hloaded, hbooted]
    rfl

/-- A signature cycle across two kernels leaves the swap header page as it found it except for
its first `sizeof(struct sig_data)` bytes: `toi_swap_remove_image` writes there what
`no_image_signature_contents` held when `toi_swap_write_header_init` put it into the image
header, not the bytes `IMAGE_SIGNATURE` took from the page. In between, after any marks,
`parse_signature` finds the image, the first header page and the last mark. -/
theorem swap_signature_cycle_restores_header_copy (a : Arch) (hL : SigLayout a)
    (resumeFirstblock : Nat) (s : SignatureState) (P : List UInt8)
    (hdisk : s.disk resumeFirstblock = P) (hP : P.length = a.pageSize)
    (hmagic : readAt P (magicOffset a) 10 = swapSpace ∨ readAt P (magicOffset a) 10 = swapSpace2)
    (hB : s.noImageSignatureContents.length = sigDataSize a)
    (device headerBlock : Nat) (hdevice : 0 < device ∧ device < 2 ^ 32)
    (hblock : headerBlock ≠ resumeFirstblock ∧ headerBlock < 2 ^ a.longBits)
    (rest : List UInt8) (marks : List Bool) :
    let signed := writeModifiedSignature a resumeFirstblock (.imageSignature device headerBlock)
      (writeHeaderFirstPage headerBlock rest s)
    let booted := parseSignature a resumeFirstblock (SignatureState.boot a signed.2.disk)
    let loaded := toiSwapReadHeaderInit a booted.2
    let marked := marks.foldl
      (fun s mark => (toiSwapMarkResumeAttempted a resumeFirstblock mark s).2) loaded.2
    signed.1 = 0 ∧ booted.1 = 10 ∧ loaded.1 = 0 ∧
      (parseSignature a resumeFirstblock marked).1 = 10 ∧
      (parseSignature a resumeFirstblock marked).2.headerblock = headerBlock ∧
      (parseSignature a resumeFirstblock marked).2.resumedBefore = marks.getLast?.getD false ∧
      (toiSwapRemoveImage a resumeFirstblock marked).2.disk resumeFirstblock =
        writeAt P 0 s.noImageSignatureContents := by
  intro signed booted loaded marked
  -- `parse_signature` types the original page `0` or `1`, and the restore puts its magic back
  obtain ⟨t, ht, ht1, hrestore⟩ : ∃ t : Nat,
      sigs.findIdx? (fun sig => (readAt P (magicOffset a) 10).take sig.length == sig) = some t ∧
        t ≤ 1 ∧ (if (t : Int) = 0 then swapSpace else swapSpace2) = readAt P (magicOffset a) 10 := by
    rcases hmagic with h | h
    · exact ⟨0, by rw [h]; decide, by omega, by rw [h]; rfl⟩
    · exact ⟨1, by rw [h]; decide, le_rfl, by rw [h]; rfl⟩
  obtain ⟨hsigned, hsignedPage, hsignedHeader⟩ :=
    @imageSignature_after_header a resumeFirstblock s P device t headerBlock rest hdisk hblock.1 ht
  obtain ⟨hbooted, hloaded, hloadedDisk, hloadedCopy⟩ :=
    readHeaderInit_after_boot hL hP hsignedPage hdevice hblock.2
  -- the header's copy of the first bytes is the buffer as it was before the cycle
  have hcopy : loaded.2.noImageSignatureContents = s.noImageSignatureContents := by
    rw [hloadedCopy, hsignedHeader]
    exact List.take_left' hB
  have hloadedPage : loaded.2.disk resumeFirstblock = signedPage a P device headerBlock false t := by
    rw [hloadedDisk]
    exact hsignedPage
  obtain ⟨hmarkedPage, hmarkedCopy⟩ :=
    foldl_markResumeAttempted hL hP marks loaded.2 false hloadedPage
  have hmarkedCopy' : marked.noImageSignatureContents = s.noImageSignatureContents :=
    hmarkedCopy.trans hcopy
  have hfound := parseSignature_signedPage (s := marked) hL hP hmarkedPage hdevice.2 hblock.2
  refine ⟨hsigned, hbooted, hloaded, by rw [hfound], by rw [hfound], by rw [hfound], ?_⟩
  rw [toiSwapRemoveImage_signedPage hL hP ht1 hrestore hmarkedPage hdevice.2 hblock.2
    (by rw [hmarkedCopy']; exact hB), hmarkedCopy']

/-- A swap header page whose first byte is `1` and whose magic is `"SWAPSPACE2"`, on x86-64. -/
def bootBytePage : List UInt8 := 1 :: List.replicate (Arch.x86_64.pageSize - 11) 0 ++ swapSpace2

/-- A kernel that has just booted with `bootBytePage` as its swap header page, block `0`. -/
def freshKernel : SignatureState :=
  SignatureState.boot .x86_64 fun block => if block = 0 then bootBytePage else []

theorem swap_signature_cycle_zeroes_first_byte :
    let signed := writeModifiedSignature .x86_64 0 (.imageSignature 1 1)
      (writeHeaderFirstPage 1 [] freshKernel)
    let loaded := toiSwapReadHeaderInit .x86_64
      (parseSignature .x86_64 0 (SignatureState.boot .x86_64 signed.2.disk)).2
    let marked := [true].foldl
      (fun s mark => (toiSwapMarkResumeAttempted .x86_64 0 mark s).2) loaded.2
    (toiSwapRemoveImage .x86_64 0 marked).2.disk 0 = writeAt bootBytePage 0 (List.replicate 24 0) ∧
      writeAt bootBytePage 0 (List.replicate 24 0) ≠ bootBytePage := by
  intro signed loaded marked
  have hsplit : bootBytePage = (1 :: List.replicate 4085 0) ++ swapSpace2 := rfl
  have hfirst : (1 :: List.replicate 4085 (0 : UInt8)).length = 4086 := by
    rw [List.length_cons, List.length_replicate]
  have hlen : bootBytePage.length = Arch.x86_64.pageSize := by
    rw [hsplit, List.length_append, hfirst]
    rfl
  -- the magic is the last ten bytes
  have hmagic : readAt bootBytePage (magicOffset .x86_64) 10 = swapSpace2 := by
    rw [hsplit, readAt, show magicOffset .x86_64 = 4086 by rfl, ← hfirst, List.drop_left]
    rfl
  have h := swap_signature_cycle_restores_header_copy .x86_64
    ⟨by decide, by decide, by decide, by decide⟩ 0 freshKernel bootBytePage rfl hlen
    (Or.inr hmagic) rfl 1 1 ⟨Nat.one_pos, Nat.one_lt_two_pow (by decide)⟩
    ⟨Nat.one_ne_zero, Nat.one_lt_two_pow (by decide)⟩ [] [true]
  -- the fresh kernel's `no_image_signature_contents` are 24 zeros
  rw [show freshKernel.noImageSignatureContents = List.replicate 24 0 from rfl] at h
  have h7 := h.2.2.2.2.2.2
  dsimp only [signed, loaded, marked]
  refine ⟨h7, fun heq => ?_⟩
  -- the first byte comes back as `0`
  have hleft : (writeAt bootBytePage 0 (List.replicate 24 0)).head? = some 0 := rfl
  have hright : bootBytePage.head? = some 1 := by
    rw [hsplit]
    rfl
  have hhead := congrArg List.head? heq
  rw [hleft, hright] at hhead
  exact absurd (Option.some.inj hhead) (by decide)

end Calls

end TuxOnIceFastboot.Alloc.Swap
