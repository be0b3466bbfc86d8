import TuxOnIceFastboot.Extent.Invariant

/-!
# The extent iterator (`toi_extent_state_*`)

`struct toi_extent_iterate_state` walks the blocks of an array of chains: chain by chain,
extent by extent, block by block. The chains are a parameter here (the iterator's `chains`
and `num_chains` are the list and its length), and `current_extent` is the index of the
extent in the current chain.

The iterator only moves forward: from `goto_start` (chain `-1`) each `toi_extent_state_next`
either reaches the end (`current_chain == num_chains`) or strictly increases the pair
(chain, offset) in lexicographic order (`next_key_lt`). Since the block layer identifies a
position by exactly that pair, this is what makes every position of a run distinct. The
saved form of a position (`toi_extent_state_save`) restores to the same state
(`restore_save`). A walk ends: from a valid state it is at the end after `stepsLeft` steps
(`iterate_stepsLeft_eof`), from `goto_start` after one step per block and one more
(`gotoStart_reaches_eof`). The iterator reads only the extents, so chains rebuilt with the same
extents, as `toi_load_extent_chain` rebuilds them at resume, give the same walk
(`SameExtents.nextValues_eq`).

What the walk returns is `valuesLeft` of its state: the rest of the current extent, then every
block of the extents and chains after it. One step returns the first of them and leaves the rest
to the next state, or, when none are left, returns `0` at the end (`next_values`). From
`goto_start` the calls return the blocks of every chain in order and then `0`, and the iterator is
at the end exactly from the call after the last block on.
-/

namespace TuxOnIceFastboot.Extent

/-- `struct toi_extent_iterate_state`, its `chains` and `num_chains` given separately. -/
structure ToiExtentIterateState where
  currentChain : Int
  currentExtent : Option Nat
  currentOffset : Nat
  deriving DecidableEq, Repr

/-- `struct hibernate_extent_iterate_saved_state`. -/
structure HibernateExtentIterateSavedState where
  chainNum : Int
  extentNum : Int
  offset : Nat
  deriving DecidableEq, Repr

/-- `toi_extent_state_goto_start`. -/
def toiExtentStateGotoStart : ToiExtentIterateState := ⟨-1, none, 0⟩

section Iterate

variable (chains : List HibernateExtentChain)

/-- Extent `i` of chain `c`, if both exist. -/
def extentAt (c : Int) (i : Nat) : Option HibernateExtent :=
  if 0 ≤ c then (chains[c.toNat]?).bind (·.extents[i]?) else none

/-- `toi_extent_state_eof`. -/
def toiExtentStateEof (st : ToiExtentIterateState) : Bool := st.currentChain == chains.length

/-- The `while (!state->current_extent)` loop of `toi_extent_state_next`: `cs` are the chains
from index `n` on, `n` being the chain `++current_chain` reaches first. -/
def seekChain (offset : Nat) : List HibernateExtentChain → Nat → ToiExtentIterateState × Nat
  | [], n => (⟨n, none, offset⟩, 0)
  | ch :: cs, n =>
    match ch.extents with
    | [] => seekChain offset cs (n + 1)
    | e :: _ => (⟨n, some 0, e.start⟩, e.start)

/-- `toi_extent_state_next`: the state after one step, and the value returned. -/
def toiExtentStateNext (st : ToiExtentIterateState) : ToiExtentIterateState × Nat :=
  if st.currentChain = chains.length then (st, 0)
  else
    -- step inside the current extent, or leave it for the next one (or for none)
    let st' : ToiExtentIterateState :=
      match st.currentExtent with
      | none => st
      | some i =>
        match extentAt chains st.currentChain i with
        | some e =>
          if st.currentOffset = e.stop then
            match extentAt chains st.currentChain (i + 1) with
            | some nx => { st with currentExtent := some (i + 1), currentOffset := nx.start }
            | none => { st with currentExtent := none, currentOffset := 0 }
          else { st with currentOffset := st.currentOffset + 1 }
        -- `current_extent` outside its chain: no state of the iterator has one
        | none => st
    match st'.currentExtent with
    | some _ => (st', st'.currentOffset)
    | none =>
      let n := (st'.currentChain + 1).toNat
      seekChain st'.currentOffset (chains.drop n) n

/-- The values `n` calls of `toi_extent_state_next` return from `st`, in order. -/
def nextValues : Nat → ToiExtentIterateState → List Nat
  | 0, _ => []
  | n + 1, st => (toiExtentStateNext chains st).2 :: nextValues n (toiExtentStateNext chains st).1

/-- The calls of `toi_extent_state_next` a walk from `st` makes before it reaches the end, the
one that reaches it included: one per block still ahead, and one more. -/
def stepsLeft (st : ToiExtentIterateState) : Nat :=
  if st.currentChain = chains.length then 0
  else if st.currentChain = -1 then (chains.map HibernateExtentChain.blocks).sum + 1
  else
    let c := st.currentChain.toNat
    match st.currentExtent, chains[c]? with
    | some i, some ch =>
      ((ch.extents[i]?).map fun e => e.stop - st.currentOffset).getD 0 +
        ((ch.extents.drop (i + 1)).map HibernateExtent.blocks).sum +
        ((chains.drop (c + 1)).map HibernateExtentChain.blocks).sum + 1
    | _, _ => 0

/-- The values a walk from `st` returns before it reaches the end: the rest of the current
extent, then the extents after it in its chain, then the chains after it. -/
def valuesLeft (st : ToiExtentIterateState) : List Nat :=
  if st.currentChain = chains.length then []
  else if st.currentChain = -1 then chains.flatMap HibernateExtentChain.values
  else
    let c := st.currentChain.toNat
    match st.currentExtent, chains[c]? with
    | some i, some ch =>
      ((ch.extents[i]?).map fun e =>
          List.range' (st.currentOffset + 1) (e.stop - st.currentOffset)).getD [] ++
        ((ch.extents.drop (i + 1)).flatMap HibernateExtent.values ++
          (chains.drop (c + 1)).flatMap HibernateExtentChain.values)
    | _, _ => []

/-- `toi_extent_state_save`; `none` where the source reads outside the array of chains or
walks past the end of a chain. -/
def toiExtentStateSave (st : ToiExtentIterateState) : Option HibernateExtentIterateSavedState :=
  if st.currentChain = -1 then some ⟨-1, 0, st.currentOffset⟩
  else if st.currentChain < 0 then none
  else
    match chains[st.currentChain.toNat]? with
    | none => none
    | some ch =>
      -- `while (extent != state->current_extent) { saved_state->extent_num++; ... }`
      match st.currentExtent with
      | none => some ⟨st.currentChain, ch.extents.length, st.currentOffset⟩
      | some i =>
        if i < ch.extents.length then some ⟨st.currentChain, i, st.currentOffset⟩ else none

/-- `toi_extent_state_restore`; `none` where the source reads outside the array of chains or
follows `next` past the end of a chain. -/
def toiExtentStateRestore (saved : HibernateExtentIterateSavedState) :
    Option ToiExtentIterateState :=
  if saved.chainNum = -1 then some toiExtentStateGotoStart
  else if saved.chainNum < 0 then none
  else
    match chains[saved.chainNum.toNat]? with
    | none => none
    | some ch =>
      -- `while (posn--) state->current_extent = state->current_extent->next;`
      if 0 ≤ saved.extentNum ∧ saved.extentNum ≤ ch.extents.length then
        some ⟨saved.chainNum,
          if saved.extentNum < ch.extents.length then some saved.extentNum.toNat else none,
          saved.offset⟩
      else none

/-! ### The states of a walk -/

/-- The states a walk from `goto_start` passes through: the start, a block of an extent of a
chain, and the end. -/
inductive Valid : ToiExtentIterateState → Prop
  | start : Valid toiExtentStateGotoStart
  | block {c : Nat} {i v : Nat} {e : HibernateExtent} (hc : c < chains.length)
      (he : extentAt chains c i = some e) (hlo : e.start ≤ v) (hhi : v ≤ e.stop) :
      Valid ⟨c, some i, v⟩
  | eof {v : Nat} : Valid ⟨chains.length, none, v⟩

/-- The position of a state as the block layer compares it: chain, then offset. -/
def posKey (st : ToiExtentIterateState) : Int ×ₗ Nat := toLex (st.currentChain, st.currentOffset)

end Iterate

/-! ### Facts about the walk -/

section Facts

variable {chains : List HibernateExtentChain}

theorem extentAt_ofNat {c : Nat} {i : Nat} :
    extentAt chains c i = (chains[c]?).bind (·.extents[i]?) := by
  simp [extentAt]

theorem drop_eq_cons {α : Type} {l t : List α} {a : α} {n : Nat} (h : l.drop n = a :: t) :
    ∃ hn : n < l.length, l[n] = a ∧ l.drop (n + 1) = t := by
  have hn : n < l.length := by
    by_contra hle
    rw [List.drop_eq_nil_iff.mpr (by omega)] at h
    cases h
  rw [List.drop_eq_getElem_cons hn] at h
  obtain ⟨rfl, rfl⟩ := List.cons.inj h
  exact ⟨hn, rfl, rfl⟩

theorem start_le_stop_of_extents_cons (hwf : ∀ ch ∈ chains, ch.Wf) {n : Nat}
    (hn : n < chains.length) {ch : HibernateExtentChain} (hch : chains[n] = ch)
    {e : HibernateExtent} {rest : List HibernateExtent} (hext : ch.extents = e :: rest) :
    e.start ≤ e.stop :=
  (hwf ch (hch ▸ List.getElem_mem hn)).1 e (by simp [hext])

theorem seekChain_valid (hwf : ∀ ch ∈ chains, ch.Wf) (offset : Nat) :
    ∀ (cs : List HibernateExtentChain) (n : Nat), n ≤ chains.length → chains.drop n = cs →
      Valid chains (seekChain offset cs n).1 ∧ (n : Int) ≤ (seekChain offset cs n).1.currentChain
  | [], n, hn, hd => by
    have : n = chains.length := by
      have := List.drop_eq_nil_iff.mp hd
      omega
    subst this
    exact ⟨Valid.eof, le_rfl⟩
  | ch :: cs, n, _, hd => by
    obtain ⟨hn, hch, hrest⟩ := drop_eq_cons hd
    cases hext : ch.extents with
    | nil =>
      have ih := seekChain_valid hwf offset cs (n + 1) (by omega) hrest
      simp only [seekChain, hext]
      exact ⟨ih.1, by have := ih.2; push_cast at this; omega⟩
    | cons e rest =>
      simp only [seekChain, hext]
      have he : extentAt chains n 0 = some e := by
        simp [extentAt_ofNat, List.getElem?_eq_getElem hn, hch, hext]
      have hwfe := start_le_stop_of_extents_cons hwf hn hch hext
      exact ⟨Valid.block hn he le_rfl hwfe, le_rfl⟩

theorem extentAt_start_le_stop (hwf : ∀ ch ∈ chains, ch.Wf) {c : Nat} {i : Nat}
    {e : HibernateExtent} (he : extentAt chains c i = some e) : e.start ≤ e.stop := by
  rw [extentAt_ofNat] at he
  obtain ⟨ch, hch, hce⟩ := Option.bind_eq_some_iff.mp he
  exact ExtentsWf.start_le_stop (hwf ch (List.mem_of_getElem? hch)) hce

theorem extentAt_stop_lt_next (hwf : ∀ ch ∈ chains, ch.Wf) {c : Nat} {i : Nat}
    {e nx : HibernateExtent} (he : extentAt chains c i = some e)
    (hnx : extentAt chains c (i + 1) = some nx) : e.stop < nx.start := by
  rw [extentAt_ofNat] at he hnx
  obtain ⟨ch, hch, hce⟩ := Option.bind_eq_some_iff.mp he
  obtain ⟨ch', hch', hcnx⟩ := Option.bind_eq_some_iff.mp hnx
  rw [hch] at hch'
  cases hch'
  exact ExtentsWf.stop_lt_next (hwf ch (List.mem_of_getElem? hch)) hce hcnx

/-! #### What one step does, state by state -/

theorem next_start :
    toiExtentStateNext chains toiExtentStateGotoStart = seekChain 0 chains 0 := by
  simp [toiExtentStateNext, toiExtentStateGotoStart]

theorem next_eof {v : Nat} :
    toiExtentStateNext chains ⟨chains.length, none, v⟩ = (⟨chains.length, none, v⟩, 0) := by
  simp [toiExtentStateNext]

theorem next_inside {c i v : Nat} {e : HibernateExtent} (hc : c < chains.length)
    (he : extentAt chains c i = some e) (hv : v ≠ e.stop) :
    toiExtentStateNext chains ⟨c, some i, v⟩ = (⟨c, some i, v + 1⟩, v + 1) := by
  have hne : (c : Int) ≠ chains.length := by omega
  simp [toiExtentStateNext, hne, he, hv]

theorem next_to_next_extent {c i : Nat} {e nx : HibernateExtent} (hc : c < chains.length)
    (he : extentAt chains c i = some e) (hnx : extentAt chains c (i + 1) = some nx) :
    toiExtentStateNext chains ⟨c, some i, e.stop⟩ = (⟨c, some (i + 1), nx.start⟩, nx.start) := by
  have hne : (c : Int) ≠ chains.length := by omega
  simp [toiExtentStateNext, hne, he, hnx]

theorem next_to_next_chain {c i : Nat} {e : HibernateExtent} (hc : c < chains.length)
    (he : extentAt chains c i = some e) (hnx : extentAt chains c (i + 1) = none) :
    toiExtentStateNext chains ⟨c, some i, e.stop⟩ =
      seekChain 0 (chains.drop (c + 1)) (c + 1) := by
  have hne : (c : Int) ≠ chains.length := by omega
  have hn : ((c : Int) + 1).toNat = c + 1 := by omega
  simp [toiExtentStateNext, hne, he, hnx, hn]

/-! #### The walk stays valid and moves forward -/

theorem next_valid (hwf : ∀ ch ∈ chains, ch.Wf) {st : ToiExtentIterateState}
    (hv : Valid chains st) : Valid chains (toiExtentStateNext chains st).1 := by
  cases hv with
  | start =>
    rw [next_start]
    exact (seekChain_valid hwf 0 chains 0 (Nat.zero_le _) rfl).1
  | eof => rw [next_eof]; exact Valid.eof
  | @block c i v e hc he hlo hhi =>
    by_cases hend : v = e.stop
    · subst hend
      cases hnx : extentAt chains c (i + 1) with
      | some nx =>
        rw [next_to_next_extent hc he hnx]
        exact Valid.block hc hnx le_rfl (extentAt_start_le_stop hwf hnx)
      | none =>
        rw [next_to_next_chain hc he hnx]
        exact (seekChain_valid hwf 0 _ (c + 1) (by omega) rfl).1
    · rw [next_inside hc he hend]
      exact Valid.block hc he (by omega) (by omega)

/-- Away from the end, one step strictly increases the position (chain, offset). -/
theorem next_key_lt (hwf : ∀ ch ∈ chains, ch.Wf) {st : ToiExtentIterateState}
    (hv : Valid chains st) (hne : st.currentChain ≠ chains.length) :
    posKey st < posKey (toiExtentStateNext chains st).1 := by
  cases hv with
  | start =>
    rw [next_start]
    have h := (seekChain_valid hwf 0 chains 0 (Nat.zero_le _) rfl).2
    simp only [posKey, toiExtentStateGotoStart, Prod.Lex.toLex_lt_toLex]
    left
    push_cast at h
    omega
  | eof => exact absurd rfl hne
  | @block c i v e hc he hlo hhi =>
    simp only [posKey, Prod.Lex.toLex_lt_toLex]
    by_cases hend : v = e.stop
    · subst hend
      cases hnx : extentAt chains c (i + 1) with
      | some nx =>
        rw [next_to_next_extent hc he hnx]
        exact Or.inr ⟨rfl, extentAt_stop_lt_next hwf he hnx⟩
      | none =>
        rw [next_to_next_chain hc he hnx]
        have h := (seekChain_valid hwf 0 _ (c + 1) (by omega) rfl).2
        left
        push_cast at h
        omega
    · rw [next_inside hc he hend]
      exact Or.inr ⟨rfl, by simp⟩

/-! #### Saving and restoring a position -/

/-- A saved position restores to the state it was saved from, anywhere but at the end. -/
theorem restore_save {st : ToiExtentIterateState} (hv : Valid chains st)
    (hne : st.currentChain ≠ chains.length) :
    ∃ saved, toiExtentStateSave chains st = some saved ∧
      toiExtentStateRestore chains saved = some st ∧
      saved.chainNum = st.currentChain ∧ saved.offset = st.currentOffset := by
  cases hv with
  | start =>
    exact ⟨⟨-1, 0, 0⟩, by simp [toiExtentStateSave, toiExtentStateGotoStart],
      by simp [toiExtentStateRestore], rfl, rfl⟩
  | eof => exact absurd rfl hne
  | @block c i v e hc he hlo hhi =>
    rw [extentAt_ofNat] at he
    obtain ⟨ch, hch, hce⟩ := Option.bind_eq_some_iff.mp he
    have hi : i < ch.extents.length := (List.getElem?_eq_some_iff.mp hce).1
    refine ⟨⟨c, i, v⟩, ?_, ?_, rfl, rfl⟩
    · have h1 : (c : Int) ≠ -1 := by omega
      have h2 : ¬ (c : Int) < 0 := by omega
      simp [toiExtentStateSave, h1, h2, hch, hi]
    · have h1 : (c : Int) ≠ -1 := by omega
      have h2 : ¬ (c : Int) < 0 := by omega
      simp [toiExtentStateRestore, h1, h2, hch, hi, Nat.le_of_lt hi]

theorem save_of_eof {st : ToiExtentIterateState} (h : st.currentChain = chains.length) :
    toiExtentStateSave chains st = none := by
  simp [toiExtentStateSave, h]

/-! #### The walk reaches the end -/

theorem stepsLeft_block {c i v : Nat} {ch : HibernateExtentChain} {e : HibernateExtent}
    (hch : chains[c]? = some ch) (he : ch.extents[i]? = some e) :
    stepsLeft chains ⟨c, some i, v⟩ = e.stop - v +
      ((ch.extents.drop (i + 1)).map HibernateExtent.blocks).sum +
      ((chains.drop (c + 1)).map HibernateExtentChain.blocks).sum + 1 := by
  have hc : c < chains.length := (List.getElem?_eq_some_iff.mp hch).1
  have h1 : (c : Int) ≠ chains.length := by omega
  have h2 : (c : Int) ≠ -1 := by omega
  simp [stepsLeft, h1, h2, hch, he]

theorem stepsLeft_seekChain (hwf : ∀ ch ∈ chains, ch.Wf) (offset : Nat) :
    ∀ (cs : List HibernateExtentChain) (n : Nat), n ≤ chains.length → chains.drop n = cs →
      stepsLeft chains (seekChain offset cs n).1 = (cs.map HibernateExtentChain.blocks).sum
  | [], n, hn, hd => by
    have : n = chains.length := by
      have := List.drop_eq_nil_iff.mp hd
      omega
    subst this
    simp [seekChain, stepsLeft]
  | ch :: cs, n, _, hd => by
    obtain ⟨hn, hch, hrest⟩ := drop_eq_cons hd
    cases hext : ch.extents with
    | nil =>
      have ih := stepsLeft_seekChain hwf offset cs (n + 1) (by omega) hrest
      simp [seekChain, hext, ih, HibernateExtentChain.blocks]
    | cons e rest =>
      have hwfe := start_le_stop_of_extents_cons hwf hn hch hext
      have hb : ch.blocks = e.stop + 1 - e.start + (rest.map HibernateExtent.blocks).sum := by
        simp [HibernateExtentChain.blocks, hext, HibernateExtent.blocks]
      simp only [seekChain, hext]
      rw [stepsLeft_block (List.getElem?_eq_some_iff.mpr ⟨hn, hch⟩) (by simp [hext] : _ = some e),
        hrest, List.map_cons, List.sum_cons, hb, hext, Nat.zero_add, List.drop_one, List.tail_cons]
      omega

theorem stepsLeft_start :
    stepsLeft chains toiExtentStateGotoStart = (chains.map HibernateExtentChain.blocks).sum + 1 := by
  have h : (-1 : Int) ≠ chains.length := by omega
  simp [stepsLeft, toiExtentStateGotoStart, h]

theorem stepsLeft_next (hwf : ∀ ch ∈ chains, ch.Wf) {st : ToiExtentIterateState}
    (hv : Valid chains st) (hne : st.currentChain ≠ chains.length) :
    stepsLeft chains (toiExtentStateNext chains st).1 + 1 = stepsLeft chains st := by
  cases hv with
  | start =>
    rw [next_start, stepsLeft_seekChain hwf 0 chains 0 (Nat.zero_le _) rfl, stepsLeft_start]
  | eof => exact absurd rfl hne
  | @block c i v e hc he hlo hhi =>
    obtain ⟨ch, hch, hce⟩ := Option.bind_eq_some_iff.mp (extentAt_ofNat.symm.trans he)
    rw [stepsLeft_block hch hce]
    by_cases hend : v = e.stop
    · subst hend
      cases hnx : extentAt chains c (i + 1) with
      | some nx =>
        -- the next extent of the chain: its blocks are the first of those left in the chain
        have hnx' : ch.extents[i + 1]? = some nx := by
          rw [extentAt_ofNat, hch] at hnx
          exact hnx
        have hwfnx : nx.start ≤ nx.stop := extentAt_start_le_stop hwf hnx
        have hdrop : ch.extents.drop (i + 1) = nx :: ch.extents.drop (i + 1 + 1) := by
          obtain ⟨hi, hget⟩ := List.getElem?_eq_some_iff.mp hnx'
          rw [List.drop_eq_getElem_cons hi, hget]
        rw [next_to_next_extent hc he hnx, stepsLeft_block hch hnx', hdrop, List.map_cons,
          List.sum_cons, HibernateExtent.blocks]
        omega
      | none =>
        -- the last extent of the chain: the search goes on from the next chain
        have hdrop : ch.extents.drop (i + 1) = [] := by
          rw [extentAt_ofNat, hch] at hnx
          exact List.drop_eq_nil_iff.mpr (by simpa using hnx)
        rw [next_to_next_chain hc he hnx, stepsLeft_seekChain hwf 0 _ (c + 1) (by omega) rfl,
          hdrop]
        simp
    · rw [next_inside hc he hend, stepsLeft_block hch hce]
      omega

/-- A walk from a state of the iterator is at the end after the steps it has left. -/
theorem iterate_stepsLeft_eof (hwf : ∀ ch ∈ chains, ch.Wf) :
    ∀ (k : Nat) {st : ToiExtentIterateState}, Valid chains st → stepsLeft chains st = k →
      ((fun st => (toiExtentStateNext chains st).1)^[k] st).currentChain = chains.length
  | 0, st, hv, hk => by
    by_contra hne
    have := stepsLeft_next hwf hv hne
    omega
  | k + 1, st, hv, hk => by
    have hne : st.currentChain ≠ chains.length := by
      intro h
      simp [stepsLeft, h] at hk
    rw [Function.iterate_succ_apply]
    exact iterate_stepsLeft_eof hwf k (next_valid hwf hv)
      (by have := stepsLeft_next hwf hv hne; omega)

theorem iterate_next_valid (hwf : ∀ ch ∈ chains, ch.Wf) :
    ∀ (n : Nat) {st : ToiExtentIterateState}, Valid chains st →
      Valid chains ((fun st => (toiExtentStateNext chains st).1)^[n] st)
  | 0, _, hv => hv
  | n + 1, _, hv => by
    rw [Function.iterate_succ_apply]
    exact iterate_next_valid hwf n (next_valid hwf hv)

theorem Valid.eq_eof {st : ToiExtentIterateState} (hv : Valid chains st)
    (h : st.currentChain = chains.length) : st = ⟨chains.length, none, st.currentOffset⟩ := by
  cases hv with
  | start => simp [toiExtentStateGotoStart] at h
  | block hc => simp at h; omega
  | eof => rfl

/-- From `toi_extent_state_goto_start`, a walk over well-formed chains reaches the end after
one step per block and one more. -/
theorem gotoStart_reaches_eof (hwf : ∀ ch ∈ chains, ch.Wf) :
    ∃ v, (fun st => (toiExtentStateNext chains st).1)^[(chains.map HibernateExtentChain.blocks).sum + 1]
      toiExtentStateGotoStart = ⟨chains.length, none, v⟩ :=
  ⟨_, (iterate_next_valid hwf _ Valid.start).eq_eof
    (iterate_stepsLeft_eof hwf _ Valid.start stepsLeft_start)⟩

/-! #### What the walk returns -/

theorem HibernateExtent.values_eq_cons {e : HibernateExtent} (h : e.start ≤ e.stop) :
    e.values = e.start :: List.range' (e.start + 1) (e.stop - e.start) := by
  rw [HibernateExtent.values, HibernateExtent.blocks,
    show e.stop + 1 - e.start = (e.stop - e.start) + 1 by omega, List.range'_succ]

theorem valuesLeft_block {c i v : Nat} {ch : HibernateExtentChain} {e : HibernateExtent}
    (hch : chains[c]? = some ch) (he : ch.extents[i]? = some e) :
    valuesLeft chains ⟨c, some i, v⟩ = List.range' (v + 1) (e.stop - v) ++
      ((ch.extents.drop (i + 1)).flatMap HibernateExtent.values ++
        (chains.drop (c + 1)).flatMap HibernateExtentChain.values) := by
  have hc : c < chains.length := (List.getElem?_eq_some_iff.mp hch).1
  have h1 : (c : Int) ≠ chains.length := by omega
  have h2 : (c : Int) ≠ -1 := by omega
  simp [valuesLeft, h1, h2, hch, he]

theorem valuesLeft_start :
    valuesLeft chains toiExtentStateGotoStart = chains.flatMap HibernateExtentChain.values := by
  have h : (-1 : Int) ≠ chains.length := by omega
  simp [valuesLeft, toiExtentStateGotoStart, h]

theorem seekChain_values (hwf : ∀ ch ∈ chains, ch.Wf) (offset : Nat) :
    ∀ (cs : List HibernateExtentChain) (n : Nat), n ≤ chains.length → chains.drop n = cs →
      (cs.flatMap HibernateExtentChain.values = [] ∧ (seekChain offset cs n).2 = 0 ∧
        (seekChain offset cs n).1.currentChain = chains.length) ∨
      ((seekChain offset cs n).1.currentChain ≠ chains.length ∧
        cs.flatMap HibernateExtentChain.values =
          (seekChain offset cs n).2 :: valuesLeft chains (seekChain offset cs n).1)
  | [], n, hn, hd => by
    have : n = chains.length := by
      have := List.drop_eq_nil_iff.mp hd
      omega
    subst this
    exact .inl ⟨rfl, rfl, rfl⟩
  | ch :: cs, n, _, hd => by
    obtain ⟨hn, hch, hrest⟩ := drop_eq_cons hd
    have hvals : (ch :: cs).flatMap HibernateExtentChain.values =
        ch.extents.flatMap HibernateExtent.values ++ cs.flatMap HibernateExtentChain.values := by
      rw [List.flatMap_cons, HibernateExtentChain.values_eq]
    cases hext : ch.extents with
    | nil =>
      -- an empty chain: the search goes on to the next one
      simp only [seekChain, hext]
      rw [hvals, hext, List.flatMap_nil, List.nil_append]
      exact seekChain_values hwf offset cs (n + 1) (by omega) hrest
    | cons e rest =>
      have hwfe := start_le_stop_of_extents_cons hwf hn hch hext
      have hch' : chains[n]? = some ch := List.getElem?_eq_some_iff.mpr ⟨hn, hch⟩
      simp only [seekChain, hext]
      refine .inr ⟨by simp; omega, ?_⟩
      rw [valuesLeft_block hch' (by simp [hext] : _ = some e), hvals, hext, hrest,
        List.flatMap_cons, HibernateExtent.values_eq_cons hwfe]
      simp

/-- One step returns the first value ahead and leaves the rest to the next state, or, with
none ahead, returns `0` at the end. -/
theorem next_values (hwf : ∀ ch ∈ chains, ch.Wf) {st : ToiExtentIterateState}
    (hv : Valid chains st) :
    (valuesLeft chains st = [] ∧ (toiExtentStateNext chains st).2 = 0 ∧
      (toiExtentStateNext chains st).1.currentChain = chains.length) ∨
    ((toiExtentStateNext chains st).1.currentChain ≠ chains.length ∧
      valuesLeft chains st =
        (toiExtentStateNext chains st).2 :: valuesLeft chains (toiExtentStateNext chains st).1) := by
  cases hv with
  | start =>
    rw [next_start, valuesLeft_start]
    exact seekChain_values hwf 0 chains 0 (Nat.zero_le _) rfl
  | eof =>
    rw [next_eof]
    exact .inl ⟨by simp [valuesLeft], rfl, rfl⟩
  | @block c i v e hc he hlo hhi =>
    obtain ⟨ch, hch, hce⟩ := Option.bind_eq_some_iff.mp (extentAt_ofNat.symm.trans he)
    rw [valuesLeft_block hch hce]
    by_cases hend : v = e.stop
    · subst hend
      cases hnx : extentAt chains c (i + 1) with
      | some nx =>
        -- the first block of the next extent of the chain
        have hnx' : ch.extents[i + 1]? = some nx := by
          rw [extentAt_ofNat, hch] at hnx
          exact hnx
        have hdrop : ch.extents.drop (i + 1) = nx :: ch.extents.drop (i + 1 + 1) := by
          obtain ⟨hi, hget⟩ := List.getElem?_eq_some_iff.mp hnx'
          rw [List.drop_eq_getElem_cons hi, hget]
        rw [next_to_next_extent hc he hnx, valuesLeft_block hch hnx', hdrop, List.flatMap_cons,
          HibernateExtent.values_eq_cons (extentAt_start_le_stop hwf hnx)]
        refine .inr ⟨by simp; omega, ?_⟩
        simp
      | none =>
        -- the last extent of the chain: what is ahead is in the chains after it
        have hdrop : ch.extents.drop (i + 1) = [] := by
          rw [extentAt_ofNat, hch] at hnx
          exact List.drop_eq_nil_iff.mpr (by simpa using hnx)
        rw [next_to_next_chain hc he hnx, hdrop, Nat.sub_self, List.range'_zero,
          List.flatMap_nil, List.nil_append, List.nil_append]
        exact seekChain_values hwf 0 _ (c + 1) (by omega) rfl
    · rw [next_inside hc he hend, valuesLeft_block hch hce,
        show e.stop - v = (e.stop - (v + 1)) + 1 by omega, List.range'_succ]
      exact .inr ⟨by simp; omega, rfl⟩

theorem nextValues_eof (v : Nat) :
    ∀ m, nextValues chains m ⟨chains.length, none, v⟩ = List.replicate m 0
  | 0 => rfl
  | m + 1 => by
    rw [nextValues, next_eof, nextValues_eof v m, List.replicate_succ]

theorem nextValues_valuesLeft (hwf : ∀ ch ∈ chains, ch.Wf) :
    ∀ (k : Nat) {st : ToiExtentIterateState}, Valid chains st →
      (valuesLeft chains st).length = k →
      ∀ m, nextValues chains (k + 1 + m) st = valuesLeft chains st ++ List.replicate (m + 1) 0
  | 0, st, hv, hk, m => by
    rcases next_values hwf hv with ⟨hnil, hret, heof⟩ | ⟨-, hcons⟩
    · have hend := (next_valid hwf hv).eq_eof heof
      rw [show 0 + 1 + m = m + 1 by omega, nextValues, hret, hend, nextValues_eof, hnil,
        List.nil_append, List.replicate_succ]
    · rw [hcons] at hk
      simp at hk
  | k + 1, st, hv, hk, m => by
    rcases next_values hwf hv with ⟨hnil, -, -⟩ | ⟨-, hcons⟩
    · rw [hnil] at hk
      simp at hk
    · rw [hcons] at hk
      rw [show k + 1 + 1 + m = (k + 1 + m) + 1 by omega, nextValues,
        nextValues_valuesLeft hwf k (next_valid hwf hv) (by simpa using hk) m, hcons,
        List.cons_append]

theorem stepsLeft_iterate (hwf : ∀ ch ∈ chains, ch.Wf) :
    ∀ (j : Nat) {st : ToiExtentIterateState}, Valid chains st → j ≤ stepsLeft chains st →
      stepsLeft chains ((fun st => (toiExtentStateNext chains st).1)^[j] st) + j =
        stepsLeft chains st
  | 0, _, _, _ => rfl
  | j + 1, st, hv, hj => by
    have hne : st.currentChain ≠ chains.length := by
      intro h
      simp [stepsLeft, h] at hj
    have hstep := stepsLeft_next hwf hv hne
    rw [Function.iterate_succ_apply]
    have := stepsLeft_iterate hwf j (next_valid hwf hv) (by omega)
    omega

theorem iterate_eof (v : Nat) (j : Nat) :
    (fun st => (toiExtentStateNext chains st).1)^[j] ⟨chains.length, none, v⟩ =
      ⟨chains.length, none, v⟩ :=
  Function.iterate_fixed (by rw [next_eof]) j

theorem sum_size_of_fits (hinv : ∀ ch ∈ chains, ChainInv ch)
    (hfit : ∀ ch ∈ chains, ch.blocks < 2 ^ 31) :
    (chains.map HibernateExtentChain.size).sum = ((chains.map HibernateExtentChain.blocks).sum : Int) := by
  induction chains with
  | nil => rfl
  | cons ch chains ih =>
    have hb := hfit ch List.mem_cons_self
    rw [List.map_cons, List.sum_cons, List.map_cons, List.sum_cons,
      ih (fun c hc => hinv c (List.mem_cons_of_mem _ hc))
        (fun c hc => hfit c (List.mem_cons_of_mem _ hc)),
      (hinv ch List.mem_cons_self).size_eq, Lib.toInt32_of_fits (by omega) (by omega)]
    omega

/-- From `toi_extent_state_goto_start`, over chains that keep the extent-chain invariant, the
calls of `toi_extent_state_next` return every block of every chain, chain by chain and in
ascending order within a chain, then `0` on every later call; the iterator is at the end
exactly from the call after the last block on, so the blocks returned before it are as many as
the chains' sizes add up to. -/
theorem extent_state_enumerates (hinv : ∀ ch ∈ chains, ChainInv ch) (m : Nat) :
    nextValues chains ((chains.map HibernateExtentChain.blocks).sum + 1 + m)
        toiExtentStateGotoStart =
      chains.flatMap HibernateExtentChain.values ++ List.replicate (m + 1) 0 ∧
    (∀ ch ∈ chains, ch.values.Pairwise (· < ·)) ∧
    (∀ k, toiExtentStateEof chains
        ((fun st => (toiExtentStateNext chains st).1)^[k] toiExtentStateGotoStart) = true ↔
      (chains.map HibernateExtentChain.blocks).sum < k) ∧
    ((∀ ch ∈ chains, ch.blocks < 2 ^ 31) →
      (chains.map HibernateExtentChain.size).sum =
        ((chains.map HibernateExtentChain.blocks).sum : Int)) := by
  have hwf : ∀ ch ∈ chains, ch.Wf := fun ch h => (hinv ch h).wf
  have hlen : (valuesLeft chains toiExtentStateGotoStart).length =
      (chains.map HibernateExtentChain.blocks).sum := by
    rw [valuesLeft_start, List.length_flatMap]
    congr 1
    exact List.map_congr_left fun ch _ => (HibernateExtentChain.blocks_eq_length_values ch).symm
  refine ⟨?_, fun ch h => (hinv ch h).wf.values_pairwise, ?_, sum_size_of_fits hinv⟩
  · rw [← hlen, nextValues_valuesLeft hwf _ Valid.start rfl, valuesLeft_start]
  · intro k
    simp only [toiExtentStateEof, beq_iff_eq]
    constructor
    · -- short of the last block, steps are still left
      intro heof
      by_contra hle
      have hsteps := stepsLeft_iterate hwf k Valid.start (by rw [stepsLeft_start]; omega)
      rw [stepsLeft_start] at hsteps
      simp only [stepsLeft, heof, if_true] at hsteps
      omega
    · -- one step past the last block the walk is at the end, and stays there
      intro hlt
      obtain ⟨v, hv⟩ := gotoStart_reaches_eof hwf
      rw [show k = (k - ((chains.map HibernateExtentChain.blocks).sum + 1)) +
          ((chains.map HibernateExtentChain.blocks).sum + 1) by omega,
        Function.iterate_add_apply, hv, iterate_eof]

/-- Three chains, the second empty: blocks 3, 4 and 7, then 1 and 2. -/
def threeChains : List HibernateExtentChain :=
  [⟨3, 2, [⟨3, 4⟩, ⟨7, 7⟩], some 1⟩, .empty, ⟨2, 1, [⟨1, 2⟩], none⟩]

theorem extent_state_enumerates_three_chains :
    (∀ ch ∈ threeChains, ChainInv ch) ∧
      (nextValues threeChains ((threeChains.map HibernateExtentChain.blocks).sum + 1 + 1)
          toiExtentStateGotoStart =
        threeChains.flatMap HibernateExtentChain.values ++ List.replicate (1 + 1) 0 ∧
      (∀ ch ∈ threeChains, ch.values.Pairwise (· < ·)) ∧
      (∀ k, toiExtentStateEof threeChains
          ((fun st => (toiExtentStateNext threeChains st).1)^[k] toiExtentStateGotoStart) = true ↔
        (threeChains.map HibernateExtentChain.blocks).sum < k) ∧
      ((∀ ch ∈ threeChains, ch.blocks < 2 ^ 31) →
        (threeChains.map HibernateExtentChain.size).sum =
          ((threeChains.map HibernateExtentChain.blocks).sum : Int))) := by
  have hinv : ∀ ch ∈ threeChains, ChainInv ch := by decide
  exact ⟨hinv, extent_state_enumerates hinv 1⟩

end Facts

/-! ### Chains rebuilt elsewhere

At resume the chains are loaded again from the header (`toi_load_extent_chain`): the same
extents, each in a new place, and the other fields set by the loader. The iterator reads only
the extents, so a position means the same on the copy. -/

/-- The chains `chains'` have the extents of `chains`, chain by chain. -/
def SameExtents (chains chains' : List HibernateExtentChain) : Prop :=
  chains'.map (·.extents) = chains.map (·.extents)

section Relocation

variable {chains chains' : List HibernateExtentChain} (h : SameExtents chains chains')
include h

theorem SameExtents.length_eq : chains'.length = chains.length := by
  simpa using congrArg List.length h

theorem SameExtents.getElem?_extents (c : Nat) :
    (chains'[c]?).map (·.extents) = (chains[c]?).map (·.extents) := by
  simpa using congrArg (·[c]?) h

theorem SameExtents.extentAt_eq (c : Int) (i : Nat) : extentAt chains' c i = extentAt chains c i := by
  have hc := h.getElem?_extents c.toNat
  unfold extentAt
  split_ifs
  · cases h1 : chains[c.toNat]? <;> cases h2 : chains'[c.toNat]? <;> simp_all
  · rfl

theorem SameExtents.drop (n : Nat) : SameExtents (chains.drop n) (chains'.drop n) := by
  unfold SameExtents at h ⊢
  rw [List.map_drop, List.map_drop, h]

omit h in
theorem seekChain_of_sameExtents (offset : Nat) :
    ∀ {cs cs' : List HibernateExtentChain} (n : Nat), SameExtents cs cs' →
      seekChain offset cs' n = seekChain offset cs n
  | [], [], _, _ => rfl
  | [], _ :: _, _, hs => by simp [SameExtents] at hs
  | _ :: _, [], _, hs => by simp [SameExtents] at hs
  | ch :: cs, ch' :: cs', n, hs => by
    obtain ⟨he, hrest⟩ := List.cons.inj hs
    simp only [seekChain, he, seekChain_of_sameExtents offset (n + 1) hrest]

theorem SameExtents.next_eq (st : ToiExtentIterateState) :
    toiExtentStateNext chains' st = toiExtentStateNext chains st := by
  simp only [toiExtentStateNext, h.length_eq, h.extentAt_eq,
    seekChain_of_sameExtents _ _ (h.drop _)]

theorem SameExtents.restore_eq (saved : HibernateExtentIterateSavedState) :
    toiExtentStateRestore chains' saved = toiExtentStateRestore chains saved := by
  have hc := h.getElem?_extents saved.chainNum.toNat
  unfold toiExtentStateRestore
  split_ifs
  · rfl
  · rfl
  · cases h1 : chains[saved.chainNum.toNat]? <;> cases h2 : chains'[saved.chainNum.toNat]? <;>
      simp_all

theorem SameExtents.nextValues_eq (n : Nat) (st : ToiExtentIterateState) :
    nextValues chains' n st = nextValues chains n st := by
  induction n generalizing st with
  | zero => rfl
  | succ n ih => simp only [nextValues, h.next_eq, ih]

end Relocation

end TuxOnIceFastboot.Extent
