import TuxOnIceFastboot.Extent.Chain
import TuxOnIceFastboot.Lib.Bytes

/-!
# Chains in the image header (`toi_serialise_extent_chain`, `toi_load_extent_chain`)

The allocators write their block chains into the image header and read them back at resume.
`toi_serialise_extent_chain` passes to `rw_header_chunk` the first two fields of the chain
struct (`size` and `num_extents`, two `int`s) and then, for each extent of the list, its first
two fields (`start` and `end`, two `unsigned long`s); `toi_load_extent_chain` reads the two `int`s
into the chain struct and then `num_extents` extents, linking them by appending.

The header is a list of bytes here: a write appends the bytes of the fields, least significant
first, and a read takes the next bytes, failing when the header has fewer. The writes are taken
to succeed.

A chain that fits its types comes back with the same `size`, `num_extents` and extents
(`load_serialise`). The loader sets `first` only when it reads an extent, so loading a chain with
no extents into a struct that held a chain leaves the old extents reachable from `first`
(`load_empty_chain_keeps_extents`). `last_touched` is never set by the loader: it keeps whatever
the struct held (a pointer into the old list in the source, an index here).
-/

namespace TuxOnIceFastboot.Extent

open TuxOnIceFastboot.Lib

variable (a : Arch)

/-! ### The fields as bytes -/

/-- The bytes of an `int` holding `x`. -/
def intBytes (x : Int) : List UInt8 := leBytes a.sizeofInt (toUnsigned (8 * a.sizeofInt) x)

/-- The `int` these bytes hold. -/
def intOfBytes (bs : List UInt8) : Int := toSigned (8 * a.sizeofInt) (leValue bs)

/-- The bytes of an `unsigned long` holding `x`. -/
def longBytes (x : Nat) : List UInt8 := leBytes a.sizeofLong x

/-- The `unsigned long` these bytes hold. -/
def longOfBytes (bs : List UInt8) : Nat := leValue bs

/-- The bytes of the first two fields of an extent, `start` and `end`. -/
def extentBytes (e : HibernateExtent) : List UInt8 := longBytes a e.start ++ longBytes a e.stop

/-! ### Writing and reading -/

/-- `toi_serialise_extent_chain(owner, chain)`: the bytes it passes to `rw_header_chunk`, and its
return value, `1` when the list does not have `num_extents` extents. -/
def toiSerialiseExtentChain (ch : HibernateExtentChain) : List UInt8 × Int :=
  (intBytes a ch.size ++ intBytes a ch.numExtents ++ ch.extents.flatMap (extentBytes a),
    if (ch.extents.length : Int) ≠ ch.numExtents then 1 else 0)

/-- `rw_header_chunk_noreadahead(READ, NULL, buf, n)` on what is left of the header: the `n`
bytes read and what is left after them, `none` when fewer are left. -/
def readChunk (n : Nat) (header : List UInt8) : Option (List UInt8 × List UInt8) :=
  if n ≤ header.length then some (header.take n, header.drop n) else none

/-- The loop of `toi_load_extent_chain` with `k` extents to read: the extents read, what is left
of the header, and whether every read succeeded. -/
def readExtents : Nat → List UInt8 → List HibernateExtent × List UInt8 × Bool
  | 0, header => ([], header, true)
  | k + 1, header =>
    match readChunk (2 * a.sizeofLong) header with
    | none => ([], header, false)
    | some (bs, header) =>
      let e : HibernateExtent :=
        ⟨longOfBytes (bs.take a.sizeofLong), longOfBytes (bs.drop a.sizeofLong)⟩
      let r := readExtents k header
      (e :: r.1, r.2.1, r.2.2)

/-- `toi_load_extent_chain(chain)`, from the struct `ch` and what is left of the header: the
struct after it, what is left of the header, and the return value. `allocOk` is whether
`toi_kzalloc` returns an extent. -/
def toiLoadExtentChain (allocOk : Bool) (ch : HibernateExtentChain) (header : List UInt8) :
    HibernateExtentChain × List UInt8 × Int :=
  match readChunk (2 * a.sizeofInt) header with
  | none => (ch, header, 1)
  | some (bs, header) =>
    let ch := { ch with
      size := intOfBytes a (bs.take a.sizeofInt)
      numExtents := intOfBytes a (bs.drop a.sizeofInt) }
    if ch.numExtents ≤ 0 then (ch, header, 0)
    else if !allocOk then (ch, header, -ENOMEM)
    else
      let r := readExtents a ch.numExtents.toNat header
      -- `first` is assigned when the first extent is linked, and only then
      ((if r.1 = [] then ch else { ch with extents := r.1 }), r.2.1, if r.2.2 then 0 else 1)

/-! ### Reading back what was written -/

section RoundTrip

variable {a}

theorem length_intBytes (x : Int) : (intBytes a x).length = a.sizeofInt := by
  simp [intBytes]

theorem length_longBytes (x : Nat) : (longBytes a x).length = a.sizeofLong := by
  simp [longBytes]

theorem length_extentBytes (e : HibernateExtent) : (extentBytes a e).length = 2 * a.sizeofLong := by
  simp [extentBytes, length_longBytes]
  omega

theorem readChunk_append {n : Nat} {bs rest : List UInt8} (h : bs.length = n) :
    readChunk n (bs ++ rest) = some (bs, rest) := by
  subst h
  simp [readChunk]

theorem intOfBytes_intBytes {x : Int} (hlo : -2 ^ (8 * a.sizeofInt) ≤ x * 2)
    (hhi : x * 2 < 2 ^ (8 * a.sizeofInt)) : intOfBytes a (intBytes a x) = x := by
  have hpos : (0 : Int) < 2 ^ (8 * a.sizeofInt) := by exact_mod_cast Nat.two_pow_pos _
  have hmod : ((2 ^ (8 * a.sizeofInt) : Nat) : Int) = 2 ^ (8 * a.sizeofInt) := by push_cast; rfl
  -- the bytes hold `x` reduced modulo `2 ^ (8 * sizeof(int))`, which `toSigned` brings back
  have hu : (toUnsigned (8 * a.sizeofInt) x : Int) = x % 2 ^ (8 * a.sizeofInt) :=
    Int.toNat_of_nonneg (Int.emod_nonneg _ (Int.ne_of_gt hpos))
  have hlt : toUnsigned (8 * a.sizeofInt) x < 2 ^ (8 * a.sizeofInt) := by
    have := Int.emod_lt_of_pos x hpos
    omega
  rw [intOfBytes, intBytes, leValue_leBytes_of_lt hlt, hu, toSigned, ← hmod, Int.emod_bmod]
  exact toSigned_of_fits hlo hhi

theorem longOfBytes_longBytes {x : Nat} (h : x < 2 ^ a.longBits) :
    longOfBytes (longBytes a x) = x :=
  leValue_leBytes_of_lt h

theorem readExtents_flatMap (rest : List UInt8) :
    ∀ (es : List HibernateExtent), (∀ e ∈ es, e.start < 2 ^ a.longBits ∧ e.stop < 2 ^ a.longBits) →
      readExtents a es.length (es.flatMap (extentBytes a) ++ rest) = (es, rest, true)
  | [], _ => rfl
  | e :: es, hfit => by
    obtain ⟨hs, ht⟩ := hfit e (by simp)
    have hlen := length_extentBytes (a := a) e
    have hread : readChunk (2 * a.sizeofLong) ((e :: es).flatMap (extentBytes a) ++ rest) =
        some (extentBytes a e, es.flatMap (extentBytes a) ++ rest) := by
      rw [List.flatMap_cons, List.append_assoc, readChunk_append hlen]
    -- the extent's two fields, then the extents after it
    have hfields : (extentBytes a e).take a.sizeofLong = longBytes a e.start ∧
        (extentBytes a e).drop a.sizeofLong = longBytes a e.stop := by
      simp [extentBytes, List.take_left' (length_longBytes e.start),
        List.drop_left' (length_longBytes e.start)]
    rw [List.length_cons, readExtents, hread]
    simp only [hfields, longOfBytes_longBytes hs, longOfBytes_longBytes ht,
      readExtents_flatMap rest es (fun e' he' => hfit e' (by simp [he']))]

theorem toiSerialiseExtentChain_ret_ne_zero (ch : HibernateExtentChain) :
    (toiSerialiseExtentChain a ch).2 ≠ 0 ↔ (ch.extents.length : Int) ≠ ch.numExtents := by
  unfold toiSerialiseExtentChain
  split_ifs with h <;> simp [h]

theorem readChunk_serialise (ch : HibernateExtentChain) (rest : List UInt8) :
    readChunk (2 * a.sizeofInt) ((toiSerialiseExtentChain a ch).1 ++ rest) =
      some (intBytes a ch.size ++ intBytes a ch.numExtents,
        ch.extents.flatMap (extentBytes a) ++ rest) := by
  have hlen : (intBytes a ch.size ++ intBytes a ch.numExtents).length = 2 * a.sizeofInt := by
    simp [length_intBytes]
    omega
  rw [toiSerialiseExtentChain, List.append_assoc, readChunk_append hlen]

theorem take_drop_intBytes (x y : Int) :
    (intBytes a x ++ intBytes a y).take a.sizeofInt = intBytes a x ∧
      (intBytes a x ++ intBytes a y).drop a.sizeofInt = intBytes a y :=
  ⟨List.take_left' (length_intBytes x), List.drop_left' (length_intBytes x)⟩

/-- A chain with extents, whose fields fit their types and whose `num_extents` counts its list,
is read back as it was written; the struct keeps its `last_touched`. -/
theorem load_serialise {ch : HibernateExtentChain} (prev : HibernateExtentChain)
    (rest : List UInt8) (hcount : ch.numExtents = ch.extents.length) (hne : ch.extents ≠ [])
    (hsize : -2 ^ (8 * a.sizeofInt) ≤ ch.size * 2 ∧ ch.size * 2 < 2 ^ (8 * a.sizeofInt))
    (hnum : (ch.extents.length : Int) * 2 < 2 ^ (8 * a.sizeofInt))
    (hfit : ∀ e ∈ ch.extents, e.start < 2 ^ a.longBits ∧ e.stop < 2 ^ a.longBits) :
    toiLoadExtentChain a true prev ((toiSerialiseExtentChain a ch).1 ++ rest) =
      ({ ch with lastTouched := prev.lastTouched }, rest, 0) := by
  obtain ⟨htake, hdrop⟩ := take_drop_intBytes (a := a) ch.size ch.numExtents
  have hn : intOfBytes a (intBytes a ch.numExtents) = ch.extents.length := by
    rw [intOfBytes_intBytes (by omega) (by omega), hcount]
  have hs : intOfBytes a (intBytes a ch.size) = ch.size := intOfBytes_intBytes hsize.1 hsize.2
  have hpos : ¬ (ch.extents.length : Int) ≤ 0 := by
    have : ch.extents.length ≠ 0 := fun h => hne (List.eq_nil_of_length_eq_zero h)
    omega
  -- the extents follow, as many as `num_extents` says
  have hread := readExtents_flatMap (a := a) rest ch.extents hfit
  simp only [toiLoadExtentChain, readChunk_serialise, htake, hdrop, hn, hs, hpos, if_false,
    Bool.not_true, Bool.false_eq_true, Int.toNat_natCast, hread, hne]
  -- the struct now holds the chain's fields, with its own `last_touched`
  obtain ⟨size, numExtents, extents, lastTouched⟩ := ch
  simp only at hcount
  simp [hcount]

/-- A chain with no extents (as `HibernateExtentChain.empty`), read back into a struct that held
a chain: `size` and `num_extents` are `0`, but `first` still leads to the extents it led to. -/
theorem load_empty_chain_keeps_extents (prev : HibernateExtentChain) (rest : List UInt8) :
    toiLoadExtentChain a true prev
        ((toiSerialiseExtentChain a HibernateExtentChain.empty).1 ++ rest) =
      ({ prev with size := 0, numExtents := 0 }, rest, 0) := by
  have hzero : intOfBytes a (intBytes a 0) = 0 := by
    simp [intOfBytes, intBytes, leValue_leBytes, toUnsigned, toSigned]
  obtain ⟨htake, hdrop⟩ := take_drop_intBytes (a := a) 0 0
  simp only [toiLoadExtentChain, readChunk_serialise, HibernateExtentChain.empty, htake, hdrop,
    hzero, Int.le_refl, if_true, List.flatMap_nil, List.nil_append]

end RoundTrip

end TuxOnIceFastboot.Extent
