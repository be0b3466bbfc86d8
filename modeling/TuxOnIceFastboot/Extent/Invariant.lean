import TuxOnIceFastboot.Extent.Chain
import TuxOnIceFastboot.Lib.Run

/-!
# The extent-chain invariant (`toi_add_to_extent_chain`)

`toi_add_to_extent_chain` keeps a chain sorted, and its counters in step with its list,
whatever order the ranges come in, as long as each is a non-empty range of blocks that are not
in the chain yet.

The search for the place of `[start, end]` ends at the last extent that starts below `start`,
whether it starts from `last_touched` or from `first` (`cur_of_split`). The list splits into
the extents that start below `start` and those that do not, and the range goes between the
two parts: it extends the extent before it and may merge the one after it, or it becomes a
new extent (`toiAddToExtentChain_cases`). In every case the blocks of the chain are those of
the two parts with the range between them (`ChainInv.of_add`).

`ChainInv` is the invariant of one chain. A run of calls from an empty chain, with
`toi_put_extent_chain` resets between them, keeps it, and the chain holds exactly the blocks of
the ranges added since the last reset.
-/

namespace TuxOnIceFastboot.Extent

open TuxOnIceFastboot.Lib

/-! ### The blocks of extents -/

/-- The blocks of one extent, in order. -/
def HibernateExtent.values (e : HibernateExtent) : List Nat := List.range' e.start e.blocks

theorem HibernateExtentChain.values_eq (ch : HibernateExtentChain) :
    ch.values = ch.extents.flatMap HibernateExtent.values := rfl

@[simp] theorem HibernateExtent.mem_values {e : HibernateExtent} {n : Nat} :
    n ∈ e.values ↔ e.start ≤ n ∧ n ≤ e.stop := by
  simp only [HibernateExtent.values, HibernateExtent.blocks, List.mem_range'_1]
  omega

@[simp] theorem HibernateExtent.length_values (e : HibernateExtent) : e.values.length = e.blocks :=
  List.length_range'

theorem HibernateExtent.values_join {a b : HibernateExtent} (hab : a.stop + 1 = b.start)
    (ha : a.start ≤ a.stop) (hb : b.start ≤ b.stop) :
    (⟨a.start, b.stop⟩ : HibernateExtent).values = a.values ++ b.values := by
  have hstart : b.start = a.start + a.blocks := by
    rw [HibernateExtent.blocks]
    omega
  simp only [HibernateExtent.values]
  rw [hstart, List.range'_append_1]
  congr 1
  simp only [HibernateExtent.blocks]
  omega

theorem HibernateExtentChain.blocks_eq_length_values (ch : HibernateExtentChain) :
    ch.blocks = ch.values.length := by
  rw [HibernateExtentChain.blocks, values_eq, List.length_flatMap]
  simp

/-! ### Sorted extents -/

theorem ExtentsWf.nil : ExtentsWf [] := ⟨by simp, List.isChain_nil⟩

theorem ExtentsWf.tail {x : HibernateExtent} {xs : List HibernateExtent}
    (h : ExtentsWf (x :: xs)) : ExtentsWf xs :=
  ⟨fun e he => h.1 e (List.mem_cons_of_mem _ he), h.2.tail⟩

theorem ExtentsWf.stop_lt_start :
    ∀ {x : HibernateExtent} {xs : List HibernateExtent}, ExtentsWf (x :: xs) →
      ∀ y ∈ xs, x.stop < y.start
  | _, [], _, _, hy => absurd hy List.not_mem_nil
  | x, y :: ys, h, z, hz => by
    have hxy : x.stop < y.start := (List.isChain_cons_cons.mp h.2).1
    have hy : y.start ≤ y.stop := h.1 y (by simp)
    rcases List.mem_cons.mp hz with rfl | hz
    · exact hxy
    · have hyz := h.tail.stop_lt_start z hz
      omega

theorem ExtentsWf.of_append {pre post : List HibernateExtent} (h : ExtentsWf (pre ++ post)) :
    ExtentsWf pre ∧ ExtentsWf post ∧
      ∀ a ∈ pre.getLast?, ∀ b ∈ post.head?, a.stop < b.start := by
  obtain ⟨hpre, hpost, hjoin⟩ := List.isChain_append.mp h.2
  exact ⟨⟨fun e he => h.1 e (List.mem_append_left _ he), hpre⟩,
    ⟨fun e he => h.1 e (List.mem_append_right _ he), hpost⟩, hjoin⟩

theorem ExtentsWf.append_cons {pre post : List HibernateExtent} {y : HibernateExtent}
    (hpre : ExtentsWf pre) (hpost : ExtentsWf post) (hy : y.start ≤ y.stop)
    (hlast : ∀ a ∈ pre.getLast?, a.stop < y.start) (hhead : ∀ b ∈ post.head?, y.stop < b.start) :
    ExtentsWf (pre ++ y :: post) := by
  refine ⟨?_, hpre.2.append (hpost.2.cons hhead) ?_⟩
  · intro e he
    rcases List.mem_append.mp he with he | he
    · exact hpre.1 e he
    · rcases List.mem_cons.mp he with rfl | he
      · exact hy
      · exact hpost.1 e he
  · intro a ha b hb
    cases hb
    exact hlast a ha

theorem ExtentsWf.exists_split {es : List HibernateExtent} (h : ExtentsWf es) (start : Nat) :
    ∃ pre post, es = pre ++ post ∧ (∀ x ∈ pre, x.start < start) ∧
      ∀ x ∈ post, start ≤ x.start := by
  induction es with
  | nil => exact ⟨[], [], rfl, by simp, by simp⟩
  | cons x xs ih =>
    by_cases hx : x.start < start
    · obtain ⟨pre, post, rfl, hpre, hpost⟩ := ih h.tail
      refine ⟨x :: pre, post, rfl, ?_, hpost⟩
      intro y hy
      rcases List.mem_cons.mp hy with rfl | hy
      · exact hx
      · exact hpre y hy
    · refine ⟨[], x :: xs, rfl, by simp, ?_⟩
      intro y hy
      rcases List.mem_cons.mp hy with rfl | hy
      · omega
      · have hxy := h.stop_lt_start y hy
        have hxx := h.1 x List.mem_cons_self
        omega

theorem ExtentsWf.values_pairwise :
    ∀ {es : List HibernateExtent}, ExtentsWf es →
      (es.flatMap HibernateExtent.values).Pairwise (· < ·)
  | [], _ => List.Pairwise.nil
  | x :: xs, h => by
    rw [List.flatMap_cons, List.pairwise_append]
    refine ⟨List.pairwise_lt_range', h.tail.values_pairwise, ?_⟩
    intro a ha b hb
    obtain ⟨y, hy, hby⟩ := List.mem_flatMap.mp hb
    rw [HibernateExtent.mem_values] at ha hby
    have := h.stop_lt_start y hy
    omega

theorem disjoint_of_split {es pre post : List HibernateExtent} {start stop : Nat}
    (h : ExtentsWf es) (hsplit : es = pre ++ post) (hpre : ∀ x ∈ pre, x.start < start)
    (hpost : ∀ x ∈ post, start ≤ x.start) (hle : start ≤ stop)
    (hdisj : ∀ n ∈ es.flatMap HibernateExtent.values, n < start ∨ stop < n) :
    (∀ x ∈ pre, x.stop < start) ∧ ∀ x ∈ post, stop < x.start := by
  subst hsplit
  constructor
  · intro x hx
    have hx' := hpre x hx
    by_contra hge
    -- then `start` itself is a block of `x`
    have hs := hdisj start (List.mem_flatMap.mpr ⟨x, List.mem_append_left _ hx, by
      rw [HibernateExtent.mem_values]
      omega⟩)
    omega
  · intro x hx
    -- else the first block of `x` is in the range
    have hx' := h.1 x (List.mem_append_right _ hx)
    have hs := hdisj x.start (List.mem_flatMap.mpr ⟨x, List.mem_append_right _ hx, by
      rw [HibernateExtent.mem_values]
      omega⟩)
    have := hpost x hx
    omega

/-! ### Where the search ends -/

theorem searchForward_append {start : Nat} {xs ys : List HibernateExtent}
    (hxs : ∀ x ∈ xs, x.start < start) (hys : ∀ y ∈ ys.head?, start ≤ y.start) (i : Nat) :
    searchForward start (xs ++ ys) i = i + xs.length := by
  induction xs generalizing i with
  | nil =>
    cases ys with
    | nil => rfl
    | cons y ys =>
      have hy := hys y rfl
      simp [searchForward, show ¬ y.start < start by omega]
  | cons x xs ih =>
    have hx := hxs x List.mem_cons_self
    rw [List.cons_append, searchForward, if_pos hx,
      ih (fun y hy => hxs y (List.mem_cons_of_mem _ hy))]
    simp only [List.length_cons]
    omega

theorem searchStart_some {ch : HibernateExtentChain} {start i : Nat}
    (h : searchStart ch start = some i) : ∃ e, ch.extents[i]? = some e ∧ e.start < start := by
  -- where the search starts from `first`
  have hfirst : ∀ f, ch.extents.head? = some f → f.start < start → i = 0 →
      ∃ e, ch.extents[i]? = some e ∧ e.start < start := by
    rintro f hf hlt rfl
    exact ⟨f, by rwa [List.head?_eq_getElem?] at hf, hlt⟩
  rcases hh : ch.extents.head? with _ | f <;> rcases hl : ch.lastTouched with _ | j
  · simp [searchStart, hh, hl] at h
  · rcases he : ch.extents[j]? with _ | e
    · simp [searchStart, hh, hl, he] at h
    · by_cases hlt : e.start < start
      · simp only [searchStart, hh, hl, he, if_pos hlt, Option.some.injEq] at h
        exact ⟨e, h ▸ he, hlt⟩
      · simp [searchStart, hh, hl, he, hlt] at h
  · by_cases hf : f.start < start
    · simp only [searchStart, hh, hl, if_pos hf, Option.some.injEq] at h
      exact hfirst f hh hf h.symm
    · simp [searchStart, hh, hl, hf] at h
  · rcases he : ch.extents[j]? with _ | e
    · by_cases hf : f.start < start
      · simp only [searchStart, hh, hl, he, if_pos hf, Option.some.injEq] at h
        exact hfirst f hh hf h.symm
      · simp [searchStart, hh, hl, he, hf] at h
    · by_cases hlt : e.start < start
      · simp only [searchStart, hh, hl, he, if_pos hlt, Option.some.injEq] at h
        exact ⟨e, h ▸ he, hlt⟩
      · by_cases hf : f.start < start
        · simp only [searchStart, hh, hl, he, if_neg hlt, if_pos hf, Option.some.injEq] at h
          exact hfirst f hh hf h.symm
        · simp [searchStart, hh, hl, he, hlt, hf] at h

theorem searchStart_none {ch : HibernateExtentChain} {start : Nat}
    (h : searchStart ch start = none) : ∀ e ∈ ch.extents.head?, start ≤ e.start := by
  intro f hf
  have hh : ch.extents.head? = some f := hf
  by_contra hlt
  have hlt : f.start < start := by omega
  rcases hl : ch.lastTouched with _ | j
  · simp [searchStart, hh, hl, hlt] at h
  · rcases he : ch.extents[j]? with _ | e
    · simp [searchStart, hh, hl, he, hlt] at h
    · by_cases hle : e.start < start
      · simp [searchStart, hl, he, hle] at h
      · simp [searchStart, hh, hl, he, hle, hlt] at h

/-- The extent `cur_ext` the search ends at: the last one that starts below `start`. -/
theorem cur_of_split {ch : HibernateExtentChain} {pre post : List HibernateExtent} {start : Nat}
    (hsplit : ch.extents = pre ++ post) (hpre : ∀ x ∈ pre, x.start < start)
    (hpost : ∀ x ∈ post, start ≤ x.start) :
    (searchStart ch start).map (fun i => searchForward start (ch.extents.drop (i + 1)) i) =
      if pre = [] then none else some (pre.length - 1) := by
  have hhead : ∀ y ∈ post.head?, start ≤ y.start := fun y hy => hpost y (List.mem_of_head? hy)
  cases hs : searchStart ch start with
  | none =>
    -- no extent starts below `start`
    have hfirst := searchStart_none hs
    cases pre with
    | nil => rfl
    | cons x pre =>
      rw [hsplit] at hfirst
      have := hfirst x rfl
      have := hpre x List.mem_cons_self
      omega
  | some i =>
    obtain ⟨e, he, hlt⟩ := searchStart_some hs
    -- the extent found is one of `pre`
    have hi : i < pre.length := by
      by_contra hge
      rw [hsplit, List.getElem?_append_right (by omega)] at he
      have := hpost e (List.mem_of_getElem? he)
      omega
    have hne : pre ≠ [] := by
      rintro rfl
      simp at hi
    rw [Option.map_some, if_neg hne, hsplit, List.drop_append_of_le_length (by omega),
      searchForward_append (fun x hx => hpre x (List.mem_of_mem_drop hx)) hhead,
      List.length_drop]
    congr 1
    omega

/-! ### What one call does -/

theorem insertIdx_length_append {α : Type} (pre post : List α) (x : α) :
    (pre ++ post).insertIdx pre.length x = pre ++ x :: post := by
  induction pre with
  | nil => exact List.insertIdx_zero
  | cons y pre ih =>
    rw [List.cons_append, List.length_cons, List.insertIdx_succ_cons, ih, List.cons_append]

/-- `toi_add_to_extent_chain` on a chain split at `start`: the range extends the last extent
that starts below it and joins the next one to it, or only extends it, or becomes a new
extent between the two parts, or the new extent cannot be allocated and nothing changes. -/
theorem toiAddToExtentChain_cases (allocOk : Bool) {ch : HibernateExtentChain}
    {pre post : List HibernateExtent} {start : Nat} (stop : Nat) (hsplit : ch.extents = pre ++ post)
    (hpre : ∀ x ∈ pre, x.start < start) (hpost : ∀ x ∈ post, start ≤ x.start) :
    (∃ pre' x nx post', pre = pre' ++ [x] ∧ post = nx :: post' ∧ x.stop + 1 = start ∧
      stop + 1 = nx.start ∧
      toiAddToExtentChain allocOk ch start stop =
        ({ size := toInt32 (ch.size + ((stop : Int) - start + 1)),
           numExtents := ch.numExtents - 1, extents := pre' ++ ⟨x.start, nx.stop⟩ :: post',
           lastTouched := some pre'.length }, 0)) ∨
    (∃ pre' x, pre = pre' ++ [x] ∧ x.stop + 1 = start ∧ (∀ nx ∈ post.head?, stop + 1 ≠ nx.start) ∧
      toiAddToExtentChain allocOk ch start stop =
        ({ ch with
           size := toInt32 (ch.size + ((stop : Int) - start + 1)),
           extents := pre' ++ ⟨x.start, stop⟩ :: post, lastTouched := some pre'.length }, 0)) ∨
    ((∀ x ∈ pre.getLast?, x.stop + 1 ≠ start) ∧ allocOk = true ∧
      toiAddToExtentChain allocOk ch start stop =
        ({ size := toInt32 (ch.size + ((stop : Int) - start + 1)),
           numExtents := ch.numExtents + 1, extents := pre ++ ⟨start, stop⟩ :: post,
           lastTouched := some pre.length }, 0)) ∨
    ((∀ x ∈ pre.getLast?, x.stop + 1 ≠ start) ∧ allocOk = false ∧
      toiAddToExtentChain allocOk ch start stop = (ch, -ENOMEM)) := by
  have hcur := cur_of_split hsplit hpre hpost
  rcases List.eq_nil_or_concat pre with rfl | ⟨pre', x, hpre'⟩
  · -- no extent starts below `start`: the new extent goes first
    rw [if_pos rfl] at hcur
    have hins : ch.extents.insertIdx 0 ⟨start, stop⟩ = [] ++ ⟨start, stop⟩ :: post := by
      rw [hsplit, List.insertIdx_zero, List.nil_append, List.nil_append]
    cases allocOk with
    | false =>
      refine .inr (.inr (.inr ⟨by simp, rfl, ?_⟩))
      simp only [toiAddToExtentChain, hcur, Bool.false_eq_true, if_false]
    | true =>
      refine .inr (.inr (.inl ⟨by simp, rfl, ?_⟩))
      simp only [toiAddToExtentChain, hcur, if_true, hins, List.length_nil]
  · -- `x` is the last extent that starts below `start`
    rw [List.concat_eq_append] at hpre'
    subst hpre'
    have hx : x.start < start := hpre x (by simp)
    rw [if_neg (by simp), List.length_append, List.length_singleton, Nat.add_sub_cancel] at hcur
    have hsplit' : ch.extents = pre' ++ x :: post := by rw [hsplit, List.append_assoc]; rfl
    have hget : ch.extents[pre'.length]? = some x := by
      rw [hsplit', List.getElem?_append_right (by omega), Nat.sub_self]
      rfl
    have hnext : ch.extents[pre'.length + 1]? = post.head? := by
      rw [hsplit', List.getElem?_append_right (by omega),
        show pre'.length + 1 - pre'.length = 0 + 1 by omega, List.getElem?_cons_succ,
        List.head?_eq_getElem?]
    have hset : ∀ y, ch.extents.set pre'.length y = pre' ++ y :: post := by
      intro y
      rw [hsplit', List.set_append_right _ _ (by omega), Nat.sub_self, List.set_cons_zero]
    by_cases hstop : x.stop = start - 1
    · -- the range continues `x`
      have hjoin : x.stop + 1 = start := by omega
      cases post with
      | nil =>
        refine .inr (.inl ⟨pre', x, rfl, hjoin, by simp, ?_⟩)
        simp only [toiAddToExtentChain, hcur, hget, hnext, hstop, if_true, hset,
          List.head?_nil]
      | cons nx post' =>
        by_cases hnx : stop + 1 = nx.start
        · refine .inl ⟨pre', x, nx, post', rfl, rfl, hjoin, hnx, ?_⟩
          have herase : (pre' ++ (⟨x.start, nx.stop⟩ : HibernateExtent) :: nx :: post').eraseIdx
              (pre'.length + 1) = pre' ++ ⟨x.start, nx.stop⟩ :: post' := by
            rw [List.eraseIdx_append_of_length_le (by omega),
              show pre'.length + 1 - pre'.length = 0 + 1 by omega, List.eraseIdx_cons_succ,
              List.eraseIdx_cons_zero]
          simp only [toiAddToExtentChain, hcur, hget, hnext, hstop, if_true, hset,
            List.head?_cons, hnx, herase]
        · refine .inr (.inl ⟨pre', x, rfl, hjoin, by simpa using hnx, ?_⟩)
          simp only [toiAddToExtentChain, hcur, hget, hnext, hstop, if_true, hset,
            List.head?_cons, hnx, if_false]
    · -- a new extent after `x`
      have hlast : ∀ y ∈ (pre' ++ [x]).getLast?, y.stop + 1 ≠ start := by
        intro y hy
        simp only [List.getLast?_concat, Option.mem_def, Option.some.injEq] at hy
        subst hy
        omega
      have hins : ch.extents.insertIdx (pre'.length + 1) ⟨start, stop⟩ =
          (pre' ++ [x]) ++ ⟨start, stop⟩ :: post := by
        have h := insertIdx_length_append (pre' ++ [x]) post ⟨start, stop⟩
        rwa [List.length_append, List.length_singleton, ← hsplit] at h
      cases allocOk with
      | false =>
        refine .inr (.inr (.inr ⟨hlast, rfl, ?_⟩))
        simp only [toiAddToExtentChain, hcur, hget, hstop, if_false, Bool.false_eq_true]
      | true =>
        refine .inr (.inr (.inl ⟨hlast, rfl, ?_⟩))
        simp only [toiAddToExtentChain, hcur, hget, hstop, if_false, if_true, hins,
          List.length_append, List.length_singleton]

/-! ### The invariant of a chain -/

/-- The extent-chain invariant: the extents sorted, `size` the number of blocks as an `int`
holds it, `num_extents` the number of extents and `last_touched` `NULL` or one of them. -/
structure ChainInv (ch : HibernateExtentChain) : Prop where
  wf : ExtentsWf ch.extents
  size_eq : ch.size = toInt32 ch.blocks
  numExtents_eq : ch.numExtents = ch.extents.length
  lastTouched_lt : ∀ i ∈ ch.lastTouched, i < ch.extents.length

instance (ch : HibernateExtentChain) : Decidable (ChainInv ch) :=
  decidable_of_iff (ExtentsWf ch.extents ∧ ch.size = toInt32 ch.blocks ∧
      ch.numExtents = ch.extents.length ∧ ∀ i ∈ ch.lastTouched, i < ch.extents.length)
    ⟨fun ⟨h1, h2, h3, h4⟩ => ⟨h1, h2, h3, h4⟩, fun h => ⟨h.1, h.2, h.3, h.4⟩⟩

theorem chainInv_empty : ChainInv .empty :=
  ⟨ExtentsWf.nil, toInt32_zero.symm, rfl, by simp [HibernateExtentChain.empty]⟩

theorem ChainInv.put {ch : HibernateExtentChain} (h : ChainInv ch) :
    ChainInv (toiPutExtentChain ch) := by
  refine ⟨ExtentsWf.nil, toInt32_zero.symm, ?_, by simp [toiPutExtentChain]⟩
  simp only [toiPutExtentChain, h.numExtents_eq, List.length_nil]
  omega

/-- What the three ways of adding a range have in common: a sorted list holding the blocks of
the two parts with the range between them, the range's blocks added to `size`, `num_extents`
moved with the list and `last_touched` one of the extents. -/
theorem ChainInv.of_add {ch ch' : HibernateExtentChain} {pre post : List HibernateExtent}
    {start stop : Nat} (h : ChainInv ch) (hle : start ≤ stop) (hsplit : ch.extents = pre ++ post)
    (hwf : ExtentsWf ch'.extents)
    (hvalues : ch'.values = pre.flatMap HibernateExtent.values ++
      (⟨start, stop⟩ : HibernateExtent).values ++ post.flatMap HibernateExtent.values)
    (hsize : ch'.size = toInt32 (ch.size + ((stop : Int) - start + 1)))
    (hnum : ch'.numExtents + ch.extents.length = ch.numExtents + ch'.extents.length)
    (hlast : ∀ i ∈ ch'.lastTouched, i < ch'.extents.length) :
    ChainInv ch' ∧ ch'.values.Perm (ch.values ++ (⟨start, stop⟩ : HibernateExtent).values) := by
  have hold : ch.values = pre.flatMap HibernateExtent.values ++
      post.flatMap HibernateExtent.values := by
    rw [HibernateExtentChain.values_eq, hsplit, List.flatMap_append]
  have hperm : ch'.values.Perm (ch.values ++ (⟨start, stop⟩ : HibernateExtent).values) := by
    rw [hvalues, hold, List.append_assoc, List.append_assoc]
    exact List.Perm.append_left _ List.perm_append_comm
  -- the blocks grow by the range's
  have hblocks : (ch'.blocks : Int) = ch.blocks + ((stop : Int) - start + 1) := by
    rw [HibernateExtentChain.blocks_eq_length_values, HibernateExtentChain.blocks_eq_length_values,
      hperm.length_eq, List.length_append, HibernateExtent.length_values,
      HibernateExtent.blocks]
    dsimp only
    omega
  refine ⟨⟨hwf, ?_, ?_, hlast⟩, hperm⟩
  · rw [hsize, h.size_eq, toInt32_add, hblocks]
  · have := h.numExtents_eq
    omega

/-- One call on a chain that keeps the invariant, with a non-empty range of blocks not in the
chain: it adds the range, returning `0`, and keeps the invariant, or it returns `-ENOMEM`
and leaves the chain as it was. -/
theorem ChainInv.add {ch : HibernateExtentChain} (h : ChainInv ch) (allocOk : Bool)
    {start stop : Nat} (hle : start ≤ stop) (hdisj : ∀ n ∈ ch.values, n < start ∨ stop < n) :
    ((toiAddToExtentChain allocOk ch start stop).2 = 0 ∧
      ChainInv (toiAddToExtentChain allocOk ch start stop).1 ∧
      (toiAddToExtentChain allocOk ch start stop).1.values.Perm
        (ch.values ++ (⟨start, stop⟩ : HibernateExtent).values)) ∨
    toiAddToExtentChain allocOk ch start stop = (ch, -ENOMEM) := by
  obtain ⟨pre, post, hsplit, hpre, hpost⟩ := h.wf.exists_split start
  obtain ⟨hbelow, habove⟩ := disjoint_of_split h.wf hsplit hpre hpost hle hdisj
  obtain ⟨hwfPre, hwfPost, hjoin⟩ := (hsplit ▸ h.wf).of_append
  have hhead : ∀ b ∈ post.head?, stop < b.start := fun b hb => habove b (List.mem_of_head? hb)
  rcases toiAddToExtentChain_cases allocOk stop hsplit hpre hpost with
    ⟨pre', x, nx, post', rfl, rfl, hx, hnx, hres⟩ | ⟨pre', x, rfl, hx, -, hres⟩ |
    ⟨-, -, hres⟩ | ⟨-, -, hres⟩
  · -- `x`, the range and `nx` become one extent
    obtain ⟨hwfPre', -, hjoin'⟩ := hwfPre.of_append
    have hxs : x.start ≤ x.stop := hwfPre.1 x (by simp)
    have hnxs : nx.start ≤ nx.stop := hwfPost.1 nx (by simp)
    have hspan : x.start ≤ nx.stop := by omega
    have hwf : ExtentsWf (pre' ++ ⟨x.start, nx.stop⟩ :: post') := by
      refine hwfPre'.append_cons hwfPost.tail hspan ?_ ?_
      · intro a ha
        exact hjoin' a ha x (by simp)
      · intro b hb
        exact hwfPost.stop_lt_start b (List.mem_of_head? hb)
    have hvalues : (⟨x.start, nx.stop⟩ : HibernateExtent).values =
        x.values ++ (⟨start, stop⟩ : HibernateExtent).values ++ nx.values := by
      rw [show (⟨x.start, nx.stop⟩ : HibernateExtent) =
          ⟨(⟨x.start, stop⟩ : HibernateExtent).start, nx.stop⟩ from rfl,
        HibernateExtent.values_join (by simpa using hnx) (by simp; omega) hnxs,
        show (⟨x.start, stop⟩ : HibernateExtent) =
          ⟨x.start, (⟨start, stop⟩ : HibernateExtent).stop⟩ from rfl,
        HibernateExtent.values_join (by simpa using hx) hxs hle]
    left
    rw [hres]
    refine ⟨rfl, ChainInv.of_add h hle hsplit hwf ?_ rfl ?_ (by simp)⟩
    · simp only [HibernateExtentChain.values_eq, List.flatMap_append, List.flatMap_cons,
        hvalues, List.flatMap_nil, List.append_nil, List.append_assoc]
    · simp only [hsplit, List.length_append, List.length_cons, List.length_nil]
      omega
  · -- the range continues `x`
    obtain ⟨hwfPre', -, hjoin'⟩ := hwfPre.of_append
    have hxs : x.start ≤ x.stop := hwfPre.1 x (by simp)
    have hwf : ExtentsWf (pre' ++ ⟨x.start, stop⟩ :: post) := by
      refine hwfPre'.append_cons hwfPost (by simp; omega) ?_ hhead
      intro a ha
      exact hjoin' a ha x (by simp)
    have hvalues : (⟨x.start, stop⟩ : HibernateExtent).values =
        x.values ++ (⟨start, stop⟩ : HibernateExtent).values :=
      HibernateExtent.values_join (b := ⟨start, stop⟩) (by simpa using hx) hxs hle
    left
    rw [hres]
    refine ⟨rfl, ChainInv.of_add h hle hsplit hwf ?_ rfl ?_ (by simp)⟩
    · simp only [HibernateExtentChain.values_eq, List.flatMap_append, List.flatMap_cons,
        hvalues, List.flatMap_nil, List.append_nil, List.append_assoc]
    · simp only [hsplit, List.length_append, List.length_cons, List.length_nil]
      omega
  · -- a new extent between the two parts
    have hwf : ExtentsWf (pre ++ ⟨start, stop⟩ :: post) := by
      refine hwfPre.append_cons hwfPost hle ?_ hhead
      intro a ha
      exact hbelow a (List.mem_of_getLast? ha)
    left
    rw [hres]
    refine ⟨rfl, ChainInv.of_add h hle hsplit hwf ?_ rfl ?_ (by simp)⟩
    · simp only [HibernateExtentChain.values_eq, List.flatMap_append, List.flatMap_cons,
        List.append_assoc]
    · simp only [hsplit, List.length_append, List.length_cons]
      omega
  · exact .inr hres

/-! ### Runs of calls -/

/-- A call on a chain: `toi_add_to_extent_chain(chain, start, end)`, with whether a new extent
can be allocated, or `toi_put_extent_chain(chain)`. -/
inductive ChainCall
  | add (allocOk : Bool) (start stop : Nat)
  | put

/-- A chain, and the ranges added to it since it was last empty. -/
structure ChainHistory where
  chain : HibernateExtentChain
  added : List HibernateExtent

/-- One call of a run, for a range of blocks that are not in the chain; a range the call
returns `-ENOMEM` for is not added. -/
def chainStep : ChainHistory → ChainCall → Option ChainHistory
  | h, .add allocOk start stop =>
    if start ≤ stop ∧ ∀ n ∈ h.chain.values, n < start ∨ stop < n then
      let r := toiAddToExtentChain allocOk h.chain start stop
      some ⟨r.1, if r.2 = 0 then h.added ++ [⟨start, stop⟩] else h.added⟩
    else none
  | h, .put => some ⟨toiPutExtentChain h.chain, []⟩

/-- The invariant of a run: the chain's invariant, and its blocks those of the ranges added. -/
def HistoryInv (h : ChainHistory) : Prop :=
  ChainInv h.chain ∧ h.chain.values.Perm (h.added.flatMap HibernateExtent.values)

theorem HistoryInv.step {h h' : ChainHistory} {c : ChainCall} (hinv : HistoryInv h)
    (hstep : chainStep h c = some h') : HistoryInv h' := by
  cases c with
  | put =>
    cases hstep
    exact ⟨hinv.1.put, by simp [toiPutExtentChain, HibernateExtentChain.values]⟩
  | add allocOk start stop =>
    simp only [chainStep] at hstep
    split at hstep
    · rename_i hpre
      cases hstep
      rcases hinv.1.add allocOk hpre.1 hpre.2 with ⟨hret, hinv', hperm⟩ | hres
      · refine ⟨hinv', ?_⟩
        rw [if_pos hret, List.flatMap_append, List.flatMap_singleton]
        exact hperm.trans (hinv.2.append_right _)
      · rw [hres]
        exact ⟨hinv.1, by simpa [ENOMEM] using hinv.2⟩
    · cases hstep

theorem ChainInv.enomem {ch : HibernateExtentChain} (h : ChainInv ch) (allocOk : Bool)
    (start stop : Nat) (hret : (toiAddToExtentChain allocOk ch start stop).2 = -ENOMEM) :
    (toiAddToExtentChain allocOk ch start stop).1 = ch := by
  obtain ⟨pre, post, hsplit, hpre, hpost⟩ := h.wf.exists_split start
  rcases toiAddToExtentChain_cases allocOk stop hsplit hpre hpost with
    ⟨_, _, _, _, _, _, _, _, hres⟩ | ⟨_, _, _, _, _, hres⟩ | ⟨_, _, hres⟩ | ⟨_, _, hres⟩
  -- the three ways of adding the range return `0`
  · rw [hres] at hret
    simp [ENOMEM] at hret
  · rw [hres] at hret
    simp [ENOMEM] at hret
  · rw [hres] at hret
    simp [ENOMEM] at hret
  · rw [hres]

/-- From an empty chain, any run of calls, each adding a non-empty range of blocks not in the
chain or resetting it, leaves a sorted chain holding exactly the blocks of the ranges added
since the last reset, `size` their number (as an `int` holds it), `num_extents` the number of
extents and `last_touched` one of them; and a call that returns `-ENOMEM` leaves it unchanged. -/
theorem extent_chain_invariant {h : ChainHistory} (hr : Reachable chainStep ⟨.empty, []⟩ h) :
    ExtentsWf h.chain.extents ∧
      (∀ n, n ∈ h.chain.values ↔ ∃ r ∈ h.added, r.start ≤ n ∧ n ≤ r.stop) ∧
      h.chain.blocks = (h.added.map HibernateExtent.blocks).sum ∧
      h.chain.size = toInt32 h.chain.blocks ∧
      (h.chain.blocks < 2 ^ 31 → h.chain.size = h.chain.blocks) ∧
      h.chain.numExtents = h.chain.extents.length ∧
      (∀ i ∈ h.chain.lastTouched, i < h.chain.extents.length) ∧
      ∀ allocOk start stop, (toiAddToExtentChain allocOk h.chain start stop).2 = -ENOMEM →
        (toiAddToExtentChain allocOk h.chain start stop).1 = h.chain := by
  have h0 : HistoryInv ⟨.empty, []⟩ := ⟨chainInv_empty, List.Perm.nil⟩
  obtain ⟨hc, hperm⟩ : HistoryInv h :=
    Reachable.invariant h0 (fun _ _ _ hs hstep => hs.step hstep) hr
  refine ⟨hc.wf, ?_, ?_, hc.size_eq, ?_, hc.numExtents_eq, hc.lastTouched_lt, hc.enomem⟩
  · intro n
    rw [hperm.mem_iff, List.mem_flatMap]
    simp
  · rw [HibernateExtentChain.blocks_eq_length_values, hperm.length_eq, List.length_flatMap]
    simp
  · intro hlt
    rw [hc.size_eq, toInt32_of_fits (by omega) (by omega)]

/-- Three calls: `[10, 12]`, then `[1, 3]` before it, then `[4, 9]` between them, which
extends the first extent and merges the second into it without an allocation. -/
theorem extent_chain_invariant_merge :
    Reachable chainStep ⟨.empty, []⟩ ⟨⟨12, 1, [⟨1, 12⟩], some 0⟩, [⟨10, 12⟩, ⟨1, 3⟩, ⟨4, 9⟩]⟩ ∧
      ExtentsWf [⟨1, 12⟩] ∧
      (∀ n, n ∈ (⟨12, 1, [⟨1, 12⟩], some 0⟩ : HibernateExtentChain).values ↔
        ∃ r ∈ [(⟨10, 12⟩ : HibernateExtent), ⟨1, 3⟩, ⟨4, 9⟩], r.start ≤ n ∧ n ≤ r.stop) ∧
      (⟨12, 1, [⟨1, 12⟩], some 0⟩ : HibernateExtentChain).blocks =
        ([(⟨10, 12⟩ : HibernateExtent), ⟨1, 3⟩, ⟨4, 9⟩].map HibernateExtent.blocks).sum ∧
      (12 : Int) = toInt32 (⟨12, 1, [⟨1, 12⟩], some 0⟩ : HibernateExtentChain).blocks ∧
      ((⟨12, 1, [⟨1, 12⟩], some 0⟩ : HibernateExtentChain).blocks < 2 ^ 31 →
        (12 : Int) = (⟨12, 1, [⟨1, 12⟩], some 0⟩ : HibernateExtentChain).blocks) ∧
      (1 : Int) = ([⟨1, 12⟩] : List HibernateExtent).length ∧
      (∀ i ∈ some 0, i < ([⟨1, 12⟩] : List HibernateExtent).length) ∧
      ∀ allocOk start stop,
        (toiAddToExtentChain allocOk ⟨12, 1, [⟨1, 12⟩], some 0⟩ start stop).2 = -ENOMEM →
        (toiAddToExtentChain allocOk ⟨12, 1, [⟨1, 12⟩], some 0⟩ start stop).1 =
          ⟨12, 1, [⟨1, 12⟩], some 0⟩ := by
  have hr : Reachable chainStep ⟨.empty, []⟩
      ⟨⟨12, 1, [⟨1, 12⟩], some 0⟩, [⟨10, 12⟩, ⟨1, 3⟩, ⟨4, 9⟩]⟩ :=
    ((Reachable.init.step (.add true 10 12) rfl).step (.add true 1 3) rfl).step
      (.add false 4 9) rfl
  exact ⟨hr, extent_chain_invariant hr⟩

end TuxOnIceFastboot.Extent
