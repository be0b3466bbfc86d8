import TuxOnIceFastboot.Base
import TuxOnIceFastboot.Lib.MachineInt

/-!
# Extent chains (`tuxonice_extent.c`, `tuxonice_extent.h`)

A `struct hibernate_extent_chain` is a singly linked list of extents `[start, end]` of
block numbers, with a cached `size` (the number of blocks), `num_extents` and the
`last_touched` extent that `toi_add_to_extent_chain` starts its search from.

The linked list is a `List HibernateExtent` here: `first` is its head and `next` the
following element, so a pointer to an extent of the chain is its index in the list. The
source's field `end` is a keyword of Lean and is called `stop`.

`ExtentsWf` is the representation invariant every chain built by `toi_add_to_extent_chain`
keeps: each extent is a non-empty range and the extents are sorted, each ending strictly
below the start of the next.
-/

namespace TuxOnIceFastboot.Extent

open TuxOnIceFastboot.Lib

/-- `struct hibernate_extent`: the blocks `start, …, end` (`end` is `stop` here). -/
structure HibernateExtent where
  start : Nat
  stop : Nat
  deriving DecidableEq, Repr

/-- `struct hibernate_extent_chain`. `extents` is the list reached from `first` along `next`,
and `lastTouched` the index of the extent `last_touched` points to (`none` for `NULL`). -/
structure HibernateExtentChain where
  size : Int
  numExtents : Int
  extents : List HibernateExtent
  lastTouched : Option Nat
  deriving DecidableEq, Repr

/-- A chain with no extents, as the static arrays of chains start out. -/
def HibernateExtentChain.empty : HibernateExtentChain := ⟨0, 0, [], none⟩

/-! ### The representation invariant -/

/-- The extents of a chain are non-empty ranges, sorted, each ending strictly below the start of
the next one. -/
def ExtentsWf (es : List HibernateExtent) : Prop :=
  (∀ e ∈ es, e.start ≤ e.stop) ∧ es.IsChain (fun a b => a.stop < b.start)

instance (es : List HibernateExtent) : Decidable (ExtentsWf es) :=
  inferInstanceAs
    (Decidable ((∀ e ∈ es, e.start ≤ e.stop) ∧ es.IsChain fun a b => a.stop < b.start))

/-- The extent-chain invariant of one chain. -/
def HibernateExtentChain.Wf (ch : HibernateExtentChain) : Prop := ExtentsWf ch.extents

instance (ch : HibernateExtentChain) : Decidable ch.Wf :=
  inferInstanceAs (Decidable (ExtentsWf ch.extents))

theorem ExtentsWf.start_le_stop {es : List HibernateExtent} (h : ExtentsWf es) {i : Nat}
    {e : HibernateExtent} (he : es[i]? = some e) : e.start ≤ e.stop :=
  h.1 e (List.mem_of_getElem? he)

theorem ExtentsWf.stop_lt_next {es : List HibernateExtent} (h : ExtentsWf es) {i : Nat}
    {e e' : HibernateExtent} (he : es[i]? = some e) (he' : es[i + 1]? = some e') :
    e.stop < e'.start := by
  obtain ⟨hi, rfl⟩ := List.getElem?_eq_some_iff.mp he
  obtain ⟨hi', rfl⟩ := List.getElem?_eq_some_iff.mp he'
  exact List.isChain_iff_getElem.mp h.2 i hi'

/-- The values `toi_extent_for_each` visits, for extents with `start ≤ end`: every block of
every extent, in order. -/
def HibernateExtentChain.values (ch : HibernateExtentChain) : List Nat :=
  ch.extents.flatMap fun e => List.range' e.start (e.stop + 1 - e.start)

/-- The number of blocks of an extent, `end - start + 1`. -/
def HibernateExtent.blocks (e : HibernateExtent) : Nat := e.stop + 1 - e.start

/-- The number of blocks of a chain's extents. -/
def HibernateExtentChain.blocks (ch : HibernateExtentChain) : Nat :=
  (ch.extents.map HibernateExtent.blocks).sum

/-! ### `toi_put_extent_chain` -/

/-- `toi_put_extent_chain`: free every extent. `num_extents` is decremented once per extent
freed, so it only returns to `0` when it counted the list correctly. -/
def toiPutExtentChain (ch : HibernateExtentChain) : HibernateExtentChain :=
  { size := 0
    numExtents := ch.numExtents - ch.extents.length
    extents := []
    lastTouched := none }

/-! ### `toi_add_to_extent_chain` -/

/-- The extent the search of `toi_add_to_extent_chain` starts from: `last_touched` if it
starts below `start`, else `first` if that does, else none. -/
def searchStart (ch : HibernateExtentChain) (start : Nat) : Option Nat :=
  let fromFirst : Option Nat :=
    match ch.extents.head? with
    | some e => if e.start < start then some 0 else none
    | none => none
  match ch.lastTouched with
  | some i =>
    match ch.extents[i]? with
    | some e => if e.start < start then some i else fromFirst
    | none => fromFirst
  | none => fromFirst

/-- `while (cur_ext->next && cur_ext->next->start < start) cur_ext = cur_ext->next;`, with
`rest` the extents after the current one, whose index is `i`. -/
def searchForward (start : Nat) : List HibernateExtent → Nat → Nat
  | [], i => i
  | e :: rest, i => if e.start < start then searchForward start rest (i + 1) else i

/-- `toi_add_to_extent_chain chain start end`. `allocOk` is whether `toi_get_extent` returns
an extent when one is needed; the result is the chain and the return value. -/
def toiAddToExtentChain (allocOk : Bool) (ch : HibernateExtentChain) (start stop : Nat) :
    HibernateExtentChain × Int :=
  let added : Int := toInt32 (ch.size + ((stop : Int) - start + 1))
  let cur : Option Nat := (searchStart ch start).map fun i =>
    searchForward start (ch.extents.drop (i + 1)) i
  -- the extent found ends just before `start`: extend it, and merge the following one
  let extend : Option (HibernateExtentChain × Int) :=
    match cur with
    | some j =>
      match ch.extents[j]? with
      | some e =>
        if e.stop = start - 1 then
          match ch.extents[j + 1]? with
          | some nx =>
            if stop + 1 = nx.start then
              some ({ size := added, numExtents := ch.numExtents - 1, lastTouched := some j,
                      extents := (ch.extents.set j ⟨e.start, nx.stop⟩).eraseIdx (j + 1) }, 0)
            else
              some ({ ch with
                      size := added, lastTouched := some j,
                      extents := ch.extents.set j ⟨e.start, stop⟩ }, 0)
          | none =>
            some ({ ch with
                    size := added, lastTouched := some j,
                    extents := ch.extents.set j ⟨e.start, stop⟩ }, 0)
        else none
      | none => none
    | none => none
  match extend with
  | some r => r
  | none =>
    if allocOk then
      -- a new extent after `cur_ext`, or at the head of the chain
      let pos := match cur with
        | some j => j + 1
        | none => 0
      ({ size := added, numExtents := ch.numExtents + 1, lastTouched := some pos,
         extents := ch.extents.insertIdx pos ⟨start, stop⟩ }, 0)
    else (ch, -ENOMEM)

end TuxOnIceFastboot.Extent
