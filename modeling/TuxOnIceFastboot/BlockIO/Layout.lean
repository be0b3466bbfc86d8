import TuxOnIceFastboot.BlockIO.Stream

/-!
# Where the image lies on the chains

The image is written as pageset 2, then pageset 1, then the header, after
`apply_header_reservation` has saved the position of page `H` of the tape as the start of
pageset 2. `image_layout` follows one such run: the header occupies tape pages `1, …, n₀`
(`n₀ ≤ H`, and an `H + 1`-th header page is refused with `-EIO`), pageset 2 the `n₂` pages
after page `H`, pageset 1 the `n₁` pages after those; no page is written twice; and reading
pageset 2 or pageset 1 back visits exactly its pages, then returns `-ENODATA`. Reading
stream 0 through `toi_rw_init` stops at the reservation, not at the last header page
written: it visits all `H` reserved pages (`header_read_passes_written_pages`).
-/

namespace TuxOnIceFastboot.BlockIO

open TuxOnIceFastboot.Extent

variable {chains : List HibernateExtentChain} {devinfo : Nat → ToiBdevInfo}

/-! ### The steps of a run, on the tape -/

theorem forwardPages_free :
    ∀ (n : Nat) {s : BioState} {k : Nat}, s.toiWriterPosn = tapePosn chains devinfo k →
      s.extraPageForward = false →
      (tapePosn chains devinfo (k + n)).currentChain ≠ chains.length →
      forwardPages chains devinfo n s = ({ s with toiWriterPosn := tapePosn chains devinfo (k + n) }, 0)
  | 0, s, k, hpos, _, _ => by cases s; simp_all [forwardPages]
  | n + 1, s, k, hpos, hx, hne => by
    have hne1 : (tapePosn chains devinfo (k + 1)).currentChain ≠ chains.length :=
      fun h => hne (tapePosn_eof_of_le (by omega) h)
    have hstep := @goNextPage_free chains devinfo true false s k hpos hx (by simp)
    rw [if_neg hne1] at hstep
    have ih := forwardPages_free n (s := { s with toiWriterPosn := tapePosn chains devinfo (k + 1) })
      (k := k + 1) rfl hx (by rwa [show k + 1 + n = k + (n + 1) by omega])
    simp only [forwardPages, hstep, if_true, ih, show k + 1 + n = k + (n + 1) by omega]

theorem applyHeaderReservation_spec (hwf : ∀ ch ∈ chains, ch.Wf) {H : Nat} {s : BioState}
    (hx : s.extraPageForward = false)
    (hne : (tapePosn chains devinfo H).currentChain ≠ chains.length) :
    ∃ x, toiExtentStateSave chains (tapePosn chains devinfo H) = some x ∧
      applyHeaderReservation chains devinfo H s =
        some ({ s with
          toiWriterPosn := tapePosn chains devinfo H
          toiWriterPosnSave := Function.update s.toiWriterPosnSave 2 x }, 0) := by
  obtain ⟨x, hx', -⟩ := restore_save (tapePosn_valid hwf H) hne
  have hf := forwardPages_free H (s := { s with toiWriterPosn := toiExtentStateGotoStart })
    (k := 0) rfl hx (by simpa using hne)
  refine ⟨x, hx', ?_⟩
  simp [applyHeaderReservation, hf, savePosn, hx']

theorem toiRwInit_restore (hwf : ∀ ch ∈ chains, ch.Wf) {pageSize : Nat} {writing : Bool}
    (stream : Fin 4) (hs : 0 < (stream : Nat)) {s : BioState} {p : Nat}
    (hslot : SlotHolds chains devinfo s stream p)
    (hne : (tapePosn chains devinfo p).currentChain ≠ chains.length) :
    toiRwInit chains pageSize true writing (stream : Nat) s =
      some ({ s with
        toiWriterPosn := tapePosn chains devinfo p
        toiWriterBufferPosn := if writing then 0 else pageSize
        currentStream := (stream : Nat)
        moreReadahead := true }, 0) := by
  have hr := restore_of_save (tapePosn_valid hwf p) hne hslot
  have h0 : ((stream : Nat) : Int) ≠ 0 := by omega
  have hlt : 0 < ((stream : Nat) : Int) ∧ ((stream : Nat) : Int) < 4 := by omega
  simp only [toiRwInit, h0, if_false, dif_pos hlt]
  simp [hr]

theorem toiRwCleanup_save {s : BioState} (slot : Fin 4) {x : HibernateExtentIterateSavedState}
    (hbuf : s.toiWriterBufferPosn = 0)
    (hstream : (s.currentStream = 2 ∧ slot = 1) ∨ (s.currentStream = 1 ∧ slot = 3))
    (hsave : toiExtentStateSave chains s.toiWriterPosn = some x) :
    toiRwCleanup chains devinfo true s =
      some ({ s with
        toiWriterPosnSave := Function.update s.toiWriterPosnSave slot x
        currentStream := 0 }, 0) := by
  rcases hstream with ⟨h2, rfl⟩ | ⟨h1, rfl⟩
  · simp [toiRwCleanup, hbuf, h2, savePosn, hsave]
  · simp [toiRwCleanup, hbuf, h1, savePosn, hsave]

theorem toiRwCleanup_header {s : BioState} (hbuf : s.toiWriterBufferPosn = 0)
    (h0 : s.currentStream = 0) :
    toiRwCleanup chains devinfo true s = some ({ s with currentStream := 0 }, 0) := by
  simp [toiRwCleanup, hbuf, h0]

/-! ### Writing and reading one stream -/

section Streams

variable (hwf : ∀ ch ∈ chains, ch.Wf) (hbpp : PagesAdvance chains devinfo)
include hwf

theorem writeStream_data (pageSize : Nat) (stream slot : Fin 4) (hs : 0 < (stream : Nat))
    (hslot : ((stream : Nat) = 2 ∧ slot = 1) ∨ ((stream : Nat) = 1 ∧ slot = 3))
    {s : BioState} {p n : Nat} (hstart : SlotHolds chains devinfo s stream p)
    (hx : s.extraPageForward = false)
    (hne : (tapePosn chains devinfo (p + n)).currentChain ≠ chains.length) :
    ∃ x, toiExtentStateSave chains (tapePosn chains devinfo (p + n)) = some x ∧
      writeStream chains devinfo pageSize (stream : Nat) n s =
        some ({ s with
          toiWriterPosn := tapePosn chains devinfo (p + n)
          toiWriterBufferPosn := 0
          currentStream := 0
          moreReadahead := true
          ioLog := s.ioLog ++ tapeRequests chains devinfo true p n
          toiWriterPosnSave := Function.update s.toiWriterPosnSave slot x },
          List.replicate n 0) := by
  obtain ⟨x, hsave, -⟩ := restore_save (tapePosn_valid hwf (p + n)) hne
  have hpne : (tapePosn chains devinfo p).currentChain ≠ chains.length :=
    fun h => hne (tapePosn_eof_of_le (by omega) h)
  set s1 : BioState := { s with
    toiWriterPosn := tapePosn chains devinfo p
    toiWriterBufferPosn := 0
    currentStream := (stream : Nat)
    moreReadahead := true } with hs1
  have hinit : toiRwInit chains pageSize true true (stream : Nat) s = some (s1, 0) := by
    rw [toiRwInit_restore hwf stream hs hstart hpne]
    rfl
  -- outside the header the barrier lets every write through
  have hrun : rwPages chains devinfo true n s1 =
      ({ s1 with
          toiWriterPosn := tapePosn chains devinfo (p + n)
          ioLog := s1.ioLog ++ tapeRequests chains devinfo true p n }, List.replicate n 0) :=
    rwPages_free n rfl hx (fun j _ ⟨_, _, h0⟩ => by simp [hs1] at h0; omega) hne
  have hclean := @toiRwCleanup_save chains devinfo
    { s1 with
      toiWriterPosn := tapePosn chains devinfo (p + n)
      ioLog := s1.ioLog ++ tapeRequests chains devinfo true p n } slot x rfl
    (by rcases hslot with ⟨h, rfl⟩ | ⟨h, rfl⟩ <;> simp [hs1, h]) hsave
  exact ⟨x, hsave, writeStream_of hinit hrun hclean⟩

include hbpp

theorem header_free {s : BioState} {H : Nat} (hslot : SlotHolds chains devinfo s 2 H)
    (hne : (tapePosn chains devinfo H).currentChain ≠ chains.length) (h0 : s.currentStream = 0)
    {j : Nat} (hj : j < H) : ¬ BarrierStops true s (tapePosn chains devinfo j) := by
  rintro ⟨hc, ho, -⟩
  obtain ⟨hc', ho'⟩ := save_key hslot
  have hjne : (tapePosn chains devinfo j).currentChain ≠ chains.length :=
    fun h => hne (tapePosn_eof_of_le (by omega) h)
  have := tapePosn_key_inj hwf hbpp hjne hne (by
    simp only [posKey, hc, ho, hc', ho', h0, compareTo])
  omega

theorem writeStream_header (pageSize : Nat) {s : BioState} {H n₀ : Nat} (hn₀ : n₀ ≤ H)
    (hslot : SlotHolds chains devinfo s 2 H) (hx : s.extraPageForward = false)
    (hne : (tapePosn chains devinfo H).currentChain ≠ chains.length) :
    writeStream chains devinfo pageSize 0 n₀ s =
      some ({ s with
        toiWriterPosn := tapePosn chains devinfo n₀
        toiWriterBufferPosn := 0
        currentStream := 0
        moreReadahead := true
        ioLog := s.ioLog ++ tapeRequests chains devinfo true 0 n₀ }, List.replicate n₀ 0) := by
  set s1 : BioState := { s with
    toiWriterPosn := tapePosn chains devinfo 0
    toiWriterBufferPosn := 0
    currentStream := 0
    moreReadahead := true } with hs1
  have hinit : toiRwInit chains pageSize true true 0 s = some (s1, 0) := by
    simp [toiRwInit, hs1, tapePosn_zero]
  have hrun : rwPages chains devinfo true n₀ s1 =
      ({ s1 with
          toiWriterPosn := tapePosn chains devinfo (0 + n₀)
          ioLog := s1.ioLog ++ tapeRequests chains devinfo true 0 n₀ }, List.replicate n₀ 0) :=
    rwPages_free n₀ rfl hx
      (fun j hj => by
        rw [Nat.zero_add]
        exact header_free hwf hbpp (s := s1) (H := H) hslot hne rfl (by omega))
      (fun h => hne (tapePosn_eof_of_le (by omega) h))
  have hclean := @toiRwCleanup_header chains devinfo
    { s1 with
      toiWriterPosn := tapePosn chains devinfo (0 + n₀)
      ioLog := s1.ioLog ++ tapeRequests chains devinfo true 0 n₀ } rfl rfl
  rw [writeStream_of hinit hrun hclean, Nat.zero_add]

theorem writeStream_header_overflow (pageSize : Nat) {s : BioState} {H : Nat}
    (hslot : SlotHolds chains devinfo s 2 H) (hx : s.extraPageForward = false)
    (hne : (tapePosn chains devinfo H).currentChain ≠ chains.length) :
    (writeStream chains devinfo pageSize 0 (H + 1) s).map (fun r => (r.2, r.1.ioLog)) =
      some (List.replicate H 0 ++ [- EIO], s.ioLog ++ tapeRequests chains devinfo true 0 H) := by
  set s1 : BioState := { s with
    toiWriterPosn := tapePosn chains devinfo 0
    toiWriterBufferPosn := 0
    currentStream := 0
    moreReadahead := true } with hs1
  have hinit : toiRwInit chains pageSize true true 0 s = some (s1, 0) := by
    simp [toiRwInit, hs1, tapePosn_zero]
  set s2 : BioState := { s1 with
    toiWriterPosn := tapePosn chains devinfo (0 + H)
    ioLog := s1.ioLog ++ tapeRequests chains devinfo true 0 H } with hs2
  have hrun : rwPages chains devinfo true H s1 = (s2, List.replicate H 0) :=
    rwPages_free H rfl hx
      (fun j hj => by
        rw [Nat.zero_add]
        exact header_free hwf hbpp (s := s1) (H := H) hslot hne rfl hj)
      (by rwa [Nat.zero_add])
  -- on page `H` the barrier stops the write
  have hstop : BarrierStops true s2 s2.toiWriterPosn := by
    obtain ⟨hc, ho⟩ := save_key hslot
    exact ⟨by simp [hs2, hs1, hc, compareTo], by simp [hs2, hs1, ho, compareTo], fun _ => rfl⟩
  have hlast : rwPages chains devinfo true 1 s2 = ({ s2 with aborted := true }, [- EIO]) := by
    simp [rwPages, toiBioRwPage_write_barrier hstop]
  have hall : rwPages chains devinfo true (H + 1) s1 =
      ({ s2 with aborted := true }, List.replicate H 0 ++ [- EIO]) := by
    rw [rwPages_add, hrun, hlast]
  have hclean := @toiRwCleanup_header chains devinfo { s2 with aborted := true } rfl rfl
  rw [writeStream_of hinit hall hclean]
  simp [hs2, hs1]

theorem readStream_reads {pageSize : Nat} {stream : Int} {s : BioState} {p n : Nat} {r : Int}
    (hinit : toiRwInit chains pageSize true false stream s = some ({ s with
      toiWriterPosn := tapePosn chains devinfo p
      toiWriterBufferPosn := pageSize
      currentStream := stream
      moreReadahead := true }, r))
    (hx : s.extraPageForward = false)
    (hend : SlotHolds chains devinfo s (compareTo stream) (p + n))
    (hne : (tapePosn chains devinfo (p + n)).currentChain ≠ chains.length) :
    StreamReads chains devinfo pageSize stream p n s := by
  intro m
  obtain ⟨h1, h2⟩ := @rwPages_read_stream chains devinfo { s with
      toiWriterPosn := tapePosn chains devinfo p
      toiWriterBufferPosn := pageSize
      currentStream := stream
      moreReadahead := true } p n m rfl hx hend hwf hbpp hne
  rw [readStream_of hinit]
  simp only [Option.map_some, h1, h2]

theorem layout_keys_nodup {H n₂ n₁ n₀ : Nat} (hn₀ : n₀ ≤ H)
    (hroom : (tapePosn chains devinfo (H + n₂ + n₁)).currentChain ≠ chains.length) :
    ((tapeRequests chains devinfo true H n₂ ++ tapeRequests chains devinfo true (H + n₂) n₁ ++
      tapeRequests chains devinfo true 0 n₀).map fun r => (r.chain, r.offset)).Nodup := by
  rw [List.map_append, List.map_append, tapeRequests_keys, tapeRequests_keys, tapeRequests_keys,
    ← List.map_append, ← List.map_append]
  apply tapePages_nodup hwf hbpp
  · -- pageset 2, pageset 1 and the header lie in disjoint ranges of pages
    simp only [List.nodup_append, List.mem_append, List.mem_range'_1]
    refine ⟨⟨List.nodup_range', List.nodup_range', ?_⟩, List.nodup_range', ?_⟩
    · intro a ha b hb; omega
    · intro a ha b hb; omega
  · intro j hj
    simp only [List.mem_append, List.mem_range'_1] at hj
    exact fun h => hroom (tapePosn_eof_of_le (by omega) h)

end Streams

/-! ### One run of the writer -/

section Run

variable (chains) (devinfo)

/-- What one run of the image writer from `s₀` does: the header reservation of `H` pages, then
`n₂` pages of pageset 2, `n₁` of pageset 1 and `n₀` of the header, each stream written through
`toi_rw_init`, `toi_bio_rw_page` and `toi_rw_cleanup`; the pages each stream writes and reads
back. -/
def ImageLayout (pageSize H n₂ n₁ n₀ : Nat) (s₀ : BioState) : Prop :=
  ∃ s₁ s₂ s₃ s₄ : BioState,
    applyHeaderReservation chains devinfo H s₀ = some (s₁, 0) ∧
    writeStream chains devinfo pageSize 2 n₂ s₁ = some (s₂, List.replicate n₂ 0) ∧
    writeStream chains devinfo pageSize 1 n₁ s₂ = some (s₃, List.replicate n₁ 0) ∧
    writeStream chains devinfo pageSize 0 n₀ s₃ = some (s₄, List.replicate n₀ 0) ∧
    s₄.ioLog = s₀.ioLog ++ tapeRequests chains devinfo true H n₂ ++
      tapeRequests chains devinfo true (H + n₂) n₁ ++ tapeRequests chains devinfo true 0 n₀ ∧
    ((tapeRequests chains devinfo true H n₂ ++ tapeRequests chains devinfo true (H + n₂) n₁ ++
      tapeRequests chains devinfo true 0 n₀).map fun r => (r.chain, r.offset)).Nodup ∧
    -- a header one page longer than the reservation
    (writeStream chains devinfo pageSize 0 (H + 1) s₃).map (fun r => (r.2, r.1.ioLog)) =
      some (List.replicate H 0 ++ [- EIO], s₃.ioLog ++ tapeRequests chains devinfo true 0 H) ∧
    StreamReads chains devinfo pageSize 2 H n₂ s₄ ∧
    StreamReads chains devinfo pageSize 1 (H + n₂) n₁ s₄ ∧
    StreamReads chains devinfo pageSize 0 0 H s₄

/-- A run of the image writer on chains with room for `H + n₂ + n₁` pages, with at most `H`
header pages: the header on tape pages `1, …, n₀`, pageset 2 on the `n₂` pages after page `H`,
pageset 1 on the `n₁` pages after those, no page written twice, and a header page `H + 1`
refused. Reading pageset 2 or pageset 1 back visits its pages, then returns `-ENODATA`; reading
the header visits all `H` reserved pages, those past page `n₀` included. -/
theorem image_layout (hwf : ∀ ch ∈ chains, ch.Wf) (hbpp : PagesAdvance chains devinfo)
    (pageSize H n₂ n₁ n₀ : Nat) (hn₀ : n₀ ≤ H)
    (hroom : (tapePosn chains devinfo (H + n₂ + n₁)).currentChain ≠ chains.length)
    (s₀ : BioState) (hx : s₀.extraPageForward = false) :
    ImageLayout chains devinfo pageSize H n₂ n₁ n₀ s₀ := by
  have hH : (tapePosn chains devinfo H).currentChain ≠ chains.length :=
    fun h => hroom (tapePosn_eof_of_le (by omega) h)
  have hH₂ : (tapePosn chains devinfo (H + n₂)).currentChain ≠ chains.length :=
    fun h => hroom (tapePosn_eof_of_le (by omega) h)
  -- the reservation saves page `H` in slot 2, where pageset 2 starts
  obtain ⟨x₁, hx₁, hres⟩ := applyHeaderReservation_spec hwf (s := s₀) hx hH
  set s₁ : BioState := { s₀ with
    toiWriterPosn := tapePosn chains devinfo H
    toiWriterPosnSave := Function.update s₀.toiWriterPosnSave 2 x₁ } with hs₁
  -- pageset 2 saves its last page `H + n₂` in slot 1, where pageset 1 starts
  obtain ⟨x₂, hx₂, hw₂⟩ := writeStream_data hwf pageSize 2 1 (by decide) (by decide)
    (s := s₁) (by simpa [SlotHolds, hs₁] using hx₁) hx hH₂
  set s₂ : BioState := { s₁ with
    toiWriterPosn := tapePosn chains devinfo (H + n₂)
    toiWriterBufferPosn := 0
    currentStream := 0
    moreReadahead := true
    ioLog := s₁.ioLog ++ tapeRequests chains devinfo true H n₂
    toiWriterPosnSave := Function.update s₁.toiWriterPosnSave 1 x₂ } with hs₂
  -- pageset 1 saves its last page in slot 3
  obtain ⟨x₃, hx₃, hw₁⟩ := writeStream_data hwf pageSize 1 3 (by decide) (by decide)
    (s := s₂) (by simpa [SlotHolds, hs₂] using hx₂) hx hroom
  set s₃ : BioState := { s₂ with
    toiWriterPosn := tapePosn chains devinfo (H + n₂ + n₁)
    toiWriterBufferPosn := 0
    currentStream := 0
    moreReadahead := true
    ioLog := s₂.ioLog ++ tapeRequests chains devinfo true (H + n₂) n₁
    toiWriterPosnSave := Function.update s₂.toiWriterPosnSave 3 x₃ } with hs₃
  have hslot₂ : SlotHolds chains devinfo s₃ 2 H := by simpa [SlotHolds, hs₃, hs₂, hs₁] using hx₁
  have hslot₁ : SlotHolds chains devinfo s₃ 1 (H + n₂) := by simpa [SlotHolds, hs₃, hs₂] using hx₂
  have hslot₃ : SlotHolds chains devinfo s₃ 3 (H + n₂ + n₁) := by
    simpa [SlotHolds, hs₃] using hx₃
  have hw₀ := writeStream_header hwf hbpp pageSize hn₀ hslot₂ hx hH
  refine ⟨s₁, s₂, s₃, _, hres, hw₂, hw₁, hw₀, ?_, layout_keys_nodup hwf hbpp hn₀ hroom,
    writeStream_header_overflow hwf hbpp pageSize hslot₂ hx hH, ?_, ?_, ?_⟩
  · simp [hs₃, hs₂, hs₁]
  · -- the header write leaves the slots as they were
    exact readStream_reads hwf hbpp (toiRwInit_restore hwf 2 (by decide) hslot₂ hH)
      hx hslot₁ hH₂
  · exact readStream_reads hwf hbpp (toiRwInit_restore hwf 1 (by decide) hslot₁ hH₂)
      hx hslot₃ hroom
  · exact readStream_reads hwf hbpp (r := 0) (by simp [toiRwInit, tapePosn_zero]) hx
      (by rw [Nat.zero_add]; exact hslot₂) (by rwa [Nat.zero_add])

/-- One chain of one extent, blocks 10 to 14, on a device of one block per page. -/
def oneExtentChains : List HibernateExtentChain := [⟨5, 1, [⟨10, 14⟩], none⟩]

def oneBlockPerPage : Nat → ToiBdevInfo := fun _ => ⟨0, 0, 0, 1, 0⟩

theorem image_layout_one_extent :
    (∀ ch ∈ oneExtentChains, ch.Wf) ∧ PagesAdvance oneExtentChains oneBlockPerPage ∧ 1 ≤ 2 ∧
      (tapePosn oneExtentChains oneBlockPerPage (2 + 1 + 1)).currentChain ≠
        oneExtentChains.length ∧
      bootBioState.extraPageForward = false ∧
      ImageLayout oneExtentChains oneBlockPerPage 4096 2 1 1 1 bootBioState :=
  ⟨by decide, by decide, by decide, by decide, rfl,
    image_layout oneExtentChains oneBlockPerPage (by decide) (by decide) 4096 2 1 1 1 (by decide)
      (by decide) bootBioState rfl⟩

/-- With a header of one page in a reservation of two, reading the header back returns a second
page where the last header page written should end the stream. -/
theorem header_read_passes_written_pages :
    (do
      let (s₁, _) ← applyHeaderReservation oneExtentChains oneBlockPerPage 2 bootBioState
      let (s₂, _) ← writeStream oneExtentChains oneBlockPerPage 4096 2 0 s₁
      let (s₃, _) ← writeStream oneExtentChains oneBlockPerPage 4096 1 0 s₂
      let (s₄, written) ← writeStream oneExtentChains oneBlockPerPage 4096 0 1 s₃
      let (_, read) ← readStream oneExtentChains oneBlockPerPage 4096 0 2 s₄
      pure (written, read)) = some ([0], [0, 0]) := by
  decide

end Run

end TuxOnIceFastboot.BlockIO
