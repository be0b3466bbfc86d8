import TuxOnIceFastboot.BlockIO.State

/-!
# The tape of pages

Without its barrier, `go_next_page` is a function of the iterator alone: one block from the
start, `blocks_per_page` blocks from a block of chain `c`. Iterated from
`toi_extent_state_goto_start` it lays the image's pages on the chains: page `k` of the
*tape* is `tapePosn k`.

With chains satisfying the extent-chain invariant and every device spanning at least one
block per page, the tape's positions strictly increase in (chain, offset) until the end of
the chains (`tapePosn_key_lt`), so two pages of the tape before the end never compare equal
(`tapePosn_key_inj`): comparing a position with a saved one, as the section barrier does,
identifies the page.
-/

namespace TuxOnIceFastboot.BlockIO

open TuxOnIceFastboot.Extent

variable (chains : List HibernateExtentChain) (devinfo : Nat → ToiBdevInfo)

/-- One page along the chains: the blocks `go_next_page` steps over. -/
def pageStep (st : ToiExtentIterateState) : ToiExtentIterateState :=
  stepBlocks chains (blocksToStep devinfo st.currentChain) st

/-- Page `k` of the tape: the position after `k` pages from the start of the chains. -/
def tapePosn (k : Nat) : ToiExtentIterateState :=
  (pageStep chains devinfo)^[k] toiExtentStateGotoStart

/-- Every device spans at least one block per page. -/
def PagesAdvance : Prop := ∀ c < chains.length, 1 ≤ (devinfo c).blocksPerPage

instance : Decidable (PagesAdvance chains devinfo) :=
  inferInstanceAs (Decidable (∀ c < chains.length, 1 ≤ (devinfo c).blocksPerPage))

section Walk

variable {chains} {devinfo}

theorem toiExtentStateEof_iff {st : ToiExtentIterateState} :
    toiExtentStateEof chains st = true ↔ st.currentChain = chains.length := by
  simp [toiExtentStateEof]

theorem next_of_eof {st : ToiExtentIterateState} (h : st.currentChain = chains.length) :
    toiExtentStateNext chains st = (st, 0) := by
  simp [toiExtentStateNext, h]

theorem stepBlocks_succ (n : Nat) (st : ToiExtentIterateState) :
    stepBlocks chains (n + 1) st = stepBlocks chains n (toiExtentStateNext chains st).1 :=
  Function.iterate_succ_apply _ _ _

theorem stepBlocks_of_eof {st : ToiExtentIterateState} (h : st.currentChain = chains.length) :
    ∀ n, stepBlocks chains n st = st
  | 0 => rfl
  | n + 1 => by rw [stepBlocks_succ, next_of_eof h]; exact stepBlocks_of_eof h n

variable (hwf : ∀ ch ∈ chains, ch.Wf)
include hwf

theorem stepBlocks_valid : ∀ (n : Nat) {st : ToiExtentIterateState}, Valid chains st →
    Valid chains (stepBlocks chains n st)
  | 0, _, hv => hv
  | n + 1, _, hv => by
    rw [stepBlocks_succ]
    exact stepBlocks_valid n (next_valid hwf hv)

theorem next_key_le {st : ToiExtentIterateState} (hv : Valid chains st) :
    posKey st ≤ posKey (toiExtentStateNext chains st).1 := by
  by_cases h : st.currentChain = chains.length
  · rw [next_of_eof h]
  · exact le_of_lt (next_key_lt hwf hv h)

theorem stepBlocks_key_le : ∀ (n : Nat) {st : ToiExtentIterateState}, Valid chains st →
    posKey st ≤ posKey (stepBlocks chains n st)
  | 0, _, _ => le_rfl
  | n + 1, _, hv => by
    rw [stepBlocks_succ]
    exact le_trans (next_key_le hwf hv) (stepBlocks_key_le n (next_valid hwf hv))

theorem stepBlocks_key_lt {n : Nat} (hn : 1 ≤ n) {st : ToiExtentIterateState}
    (hv : Valid chains st) (hne : (stepBlocks chains n st).currentChain ≠ chains.length) :
    posKey st < posKey (stepBlocks chains n st) := by
  obtain ⟨m, rfl⟩ : ∃ m, n = m + 1 := ⟨n - 1, by omega⟩
  have hst : st.currentChain ≠ chains.length := by
    intro h
    rw [stepBlocks_of_eof h] at hne
    exact hne h
  rw [stepBlocks_succ] at hne ⊢
  exact lt_of_lt_of_le (next_key_lt hwf hv hst) (stepBlocks_key_le hwf m (next_valid hwf hv))

end Walk

section Tape

variable {chains} {devinfo}

theorem tapePosn_zero : tapePosn chains devinfo 0 = toiExtentStateGotoStart := rfl

theorem tapePosn_succ (k : Nat) :
    tapePosn chains devinfo (k + 1) = pageStep chains devinfo (tapePosn chains devinfo k) :=
  Function.iterate_succ_apply' _ _ _

theorem tapePosn_eof_of_le {j k : Nat} (hjk : j ≤ k)
    (hj : (tapePosn chains devinfo j).currentChain = chains.length) :
    (tapePosn chains devinfo k).currentChain = chains.length := by
  induction k, hjk using Nat.le_induction with
  | base => exact hj
  | succ k _ ih => rw [tapePosn_succ, pageStep, stepBlocks_of_eof ih]; exact ih

variable (hwf : ∀ ch ∈ chains, ch.Wf)
include hwf

theorem tapePosn_valid (k : Nat) : Valid chains (tapePosn chains devinfo k) := by
  induction k with
  | zero => exact Valid.start
  | succ k ih => rw [tapePosn_succ]; exact stepBlocks_valid hwf _ ih

variable (hbpp : PagesAdvance chains devinfo)
include hbpp

omit hwf in
theorem blocksToStep_pos {st : ToiExtentIterateState} (hv : Valid chains st)
    (hne : st.currentChain ≠ chains.length) : 1 ≤ blocksToStep devinfo st.currentChain := by
  cases hv with
  | start => simp [blocksToStep, toiExtentStateGotoStart]
  | eof => exact absurd rfl hne
  | @block c i v e hc he hlo hhi =>
    have := hbpp c hc
    simp [blocksToStep]
    omega

theorem tapePosn_key_lt_succ {k : Nat}
    (hne : (tapePosn chains devinfo (k + 1)).currentChain ≠ chains.length) :
    posKey (tapePosn chains devinfo k) < posKey (tapePosn chains devinfo (k + 1)) := by
  have hk : (tapePosn chains devinfo k).currentChain ≠ chains.length :=
    fun h => hne (tapePosn_eof_of_le (Nat.le_succ k) h)
  rw [tapePosn_succ] at hne ⊢
  exact stepBlocks_key_lt hwf (blocksToStep_pos hbpp (tapePosn_valid hwf k) hk)
    (tapePosn_valid hwf k) hne

/-- The tape's positions strictly increase up to the end of the chains. -/
theorem tapePosn_key_lt {j k : Nat} (hjk : j < k)
    (hk : (tapePosn chains devinfo k).currentChain ≠ chains.length) :
    posKey (tapePosn chains devinfo j) < posKey (tapePosn chains devinfo k) := by
  induction k, hjk using Nat.le_induction with
  | base => exact tapePosn_key_lt_succ hwf hbpp hk
  | succ k hjk ih =>
    have hk' : (tapePosn chains devinfo k).currentChain ≠ chains.length :=
      fun h => hk (tapePosn_eof_of_le (Nat.le_succ k) h)
    exact lt_trans (ih hk') (tapePosn_key_lt_succ hwf hbpp hk)

/-- Two pages of the tape short of the end are at the same (chain, offset) only if they are the
same page. -/
theorem tapePosn_key_inj {j k : Nat}
    (hj : (tapePosn chains devinfo j).currentChain ≠ chains.length)
    (hk : (tapePosn chains devinfo k).currentChain ≠ chains.length)
    (h : posKey (tapePosn chains devinfo j) = posKey (tapePosn chains devinfo k)) : j = k := by
  rcases lt_trichotomy j k with hjk | rfl | hkj
  · exact absurd h (ne_of_lt (tapePosn_key_lt hwf hbpp hjk hk))
  · rfl
  · exact absurd h.symm (ne_of_lt (tapePosn_key_lt hwf hbpp hkj hj))

theorem tapePages_nodup {pages : List Nat} (hnd : pages.Nodup)
    (hne : ∀ j ∈ pages, (tapePosn chains devinfo j).currentChain ≠ chains.length) :
    (pages.map fun j => ((tapePosn chains devinfo j).currentChain,
      (tapePosn chains devinfo j).currentOffset)).Nodup := by
  refine List.Nodup.map_on (fun a ha b hb hab => ?_) hnd
  exact tapePosn_key_inj hwf hbpp (hne a ha) (hne b hb) (by simp only [posKey, hab])

end Tape

end TuxOnIceFastboot.BlockIO
