import Mathlib

/-!
# A heap of blocks handed out in order

An allocator that gives each block the next address and never reuses one, as a run of
allocations looks to code that only stores, compares and frees the pointers. A block keeps what
was written into it and whether it was freed; a free marks it and keeps its contents, which is
what a use after the free reads. What is still allocated is `live`.

An allocation adds a live block at the end. A free at an address past a part of the heap leaves
that part as it was (`free_append_right`, `freeAll_append_right`), so that code which frees only
blocks it allocated leaves every older block as it was. Freeing the first `k` of a run of new
blocks marks them and leaves the rest of the run allocated (`freeAll_range`), and the addresses of
a run read it back (`filterMap_getElem?_range'`).
-/

namespace TuxOnIceFastboot.Lib

/-- A block: what was written into it, and whether it was freed. -/
structure Block (α : Type) where
  contents : α
  freed : Bool
  deriving DecidableEq, Repr

variable {α : Type}

/-- The blocks of a run of allocations holding these values, none of them freed. -/
def fresh (xs : List α) : List (Block α) := xs.map fun a => ⟨a, false⟩

/-- The blocks of a run of allocations holding these values, all of them freed. -/
def freedBlocks (xs : List α) : List (Block α) := xs.map fun a => ⟨a, true⟩

/-- Allocate a block holding `a`: its address is the number of blocks so far. -/
def alloc (h : List (Block α)) (a : α) : Nat × List (Block α) := (h.length, h ++ [⟨a, false⟩])

/-- Free the block at address `p`. -/
def free (h : List (Block α)) (p : Nat) : List (Block α) :=
  h.modify p fun b => { b with freed := true }

/-- Free the blocks at these addresses, in order. -/
def freeAll (h : List (Block α)) (ps : List Nat) : List (Block α) := ps.foldl free h

/-- What is still allocated: the contents of the blocks not freed, by address. -/
def live (h : List (Block α)) : List α := (h.filter fun b => !b.freed).map (·.contents)

variable {h h₁ h₂ : List (Block α)} {p : Nat}

@[simp] theorem fresh_nil : fresh ([] : List α) = [] := rfl

@[simp] theorem length_fresh (xs : List α) : (fresh xs).length = xs.length := by simp [fresh]

@[simp] theorem fresh_append (xs ys : List α) : fresh (xs ++ ys) = fresh xs ++ fresh ys := by
  simp [fresh]

@[simp] theorem live_nil : live ([] : List (Block α)) = [] := rfl

@[simp] theorem live_append : live (h₁ ++ h₂) = live h₁ ++ live h₂ := by simp [live]

@[simp] theorem live_cons_fresh (a : α) : live (⟨a, false⟩ :: h) = a :: live h := by simp [live]

@[simp] theorem live_cons_freed (a : α) : live (⟨a, true⟩ :: h) = live h := by simp [live]

@[simp] theorem live_fresh (xs : List α) : live (fresh xs) = xs := by
  induction xs with
  | nil => rfl
  | cons a xs ih => simpa [fresh] using ih

@[simp] theorem freedBlocks_nil : freedBlocks ([] : List α) = [] := rfl

@[simp] theorem freedBlocks_append (xs ys : List α) :
    freedBlocks (xs ++ ys) = freedBlocks xs ++ freedBlocks ys := by
  simp [freedBlocks]

/-- Nothing of a run of freed blocks is allocated. -/
@[simp] theorem live_freedBlocks (xs : List α) : live (freedBlocks xs) = [] := by
  simp [live, freedBlocks]

@[simp] theorem length_freedBlocks (xs : List α) : (freedBlocks xs).length = xs.length := by
  simp [freedBlocks]

@[simp] theorem length_free : (free h p).length = h.length := List.length_modify ..

@[simp] theorem free_nil (p : Nat) : free ([] : List (Block α)) p = [] := by simp [free]

@[simp] theorem free_cons_zero (b : Block α) : free (b :: h) 0 = { b with freed := true } :: h :=
  rfl

@[simp] theorem free_cons_succ (b : Block α) : free (b :: h) (p + 1) = b :: free h p := by
  simp [free, List.modify_succ_cons]

/-- A free in the second part of a heap leaves the first. -/
theorem free_append_right (j : Nat) : free (h₁ ++ h₂) (h₁.length + j) = h₁ ++ free h₂ j := by
  induction h₁ with
  | nil => simp
  | cons b h₁ ih => simp [Nat.add_right_comm, ih]

/-- The addresses of a run of blocks read back the run. -/
theorem filterMap_getElem?_range' (h₁ h₂ h₃ : List (Block α)) :
    (List.range' h₁.length h₂.length).filterMap ((h₁ ++ h₂ ++ h₃)[·]?) = h₂ := by
  induction h₂ generalizing h₁ with
  | nil => rfl
  | cons b h₂ ih =>
    have hrest := ih (h₁ ++ [b])
    simp only [List.length_append, List.length_cons, List.length_nil, List.append_assoc,
      List.cons_append, List.nil_append] at hrest
    rw [List.length_cons, List.range'_succ, List.filterMap_cons]
    simp [hrest]

theorem filterMap_getElem?_range'_drop (h : List (Block α)) (k : Nat) :
    (List.range' k (h.length - k)).filterMap (h[·]?) = h.drop k := by
  by_cases hk : k ≤ h.length
  · have hsplit := filterMap_getElem?_range' (h.take k) (h.drop k) []
    rwa [List.append_nil, List.take_append_drop, List.length_take_of_le hk,
      List.length_drop] at hsplit
  · rw [Nat.sub_eq_zero_of_le (by omega), List.drop_eq_nil_of_le (by omega)]
    rfl

@[simp] theorem freeAll_nil : freeAll h [] = h := rfl

@[simp] theorem freeAll_cons (q : Nat) (ps : List Nat) :
    freeAll h (q :: ps) = freeAll (free h q) ps := rfl

/-- Frees in the second part of a heap leave the first. -/
theorem freeAll_append_right (ps : List Nat) :
    freeAll (h₁ ++ h₂) (ps.map (h₁.length + ·)) = h₁ ++ freeAll h₂ ps := by
  induction ps generalizing h₂ with
  | nil => rfl
  | cons q ps ih => simp [free_append_right, ih]

@[simp] theorem length_freeAll (ps : List Nat) : (freeAll h ps).length = h.length := by
  induction ps generalizing h with
  | nil => rfl
  | cons q ps ih => simp [ih]

/-- Freeing the first `k` blocks of a run of new ones marks them and leaves the others. -/
theorem freeAll_range (xs : List α) (h : List (Block α)) {k : Nat} (hk : k ≤ xs.length) :
    freeAll (fresh xs ++ h) (List.range k) =
      freedBlocks (xs.take k) ++ fresh (xs.drop k) ++ h := by
  induction k generalizing xs with
  | zero => simp
  | succ k ih =>
    obtain ⟨a, xs, rfl⟩ : ∃ a ys, xs = a :: ys := List.exists_cons_of_length_pos (by omega)
    -- the first free marks block `0`, the others are frees in the rest shifted by one
    have hshift : freeAll (free (fresh (a :: xs) ++ h) 0) (List.range (k + 1)).tail =
        ⟨a, true⟩ :: freeAll (fresh xs ++ h) (List.range k) := by
      rw [List.range_succ_eq_map, List.tail_cons]
      simpa [fresh, Nat.add_comm] using
        @freeAll_append_right _ [⟨a, true⟩] (fresh xs ++ h) (List.range k)
    have hrange : List.range (k + 1) = 0 :: (List.range (k + 1)).tail := by
      simp [List.range_succ_eq_map]
    rw [hrange, freeAll_cons, hshift, ih xs (by simpa using hk)]
    simp [freedBlocks]

end TuxOnIceFastboot.Lib
