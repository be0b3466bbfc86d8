import Mathlib

/-!
# What the places of a list contribute

A loop over a list that keeps a record per element (a counter per entry, say) gives to the
entry at place `j` what is computed from it there. Summed over the places, a quantity that only
place `j` contributes is what its entry gives (`sum_zipIdx_ite`), and quantities compared place
by place compare in sum (`sum_zipIdx_le`). A loop that adds one to a counter at each element
that passes a test counts the elements that pass (`foldl_counter`), and two lists without
repeats count alike what they hold alike (`length_filter_eq_of_mem_iff`). A sequence laid out
`P` to a page puts place `i` in slot `i % P` of page `i / P`, and the place after it in the next
slot of that page or in the first slot of the next page (`div_mod_succ`). Rounded up to pages,
`n` places take enough pages and at most one short of full (`div_round_up_bounds`); counted in
bytes of `s` to a place and `s * K` to a page, they take the same pages (`div_round_up_mul`).
-/

namespace TuxOnIceFastboot.Lib

variable {α : Type}

/-- Only place `j` contributes: the sum is what the entry there gives, `0` without one. -/
theorem sum_zipIdx_ite (g : α × Nat → Nat) (j : Nat) :
    ∀ (l : List α) (k : Nat),
      ((l.zipIdx k).map fun p => if p.2 = j then g p else 0).sum =
        if k ≤ j then (l[j - k]?.map fun x => g (x, j)).getD 0 else 0
  | [], k => by simp
  | a :: l, k => by
    rw [List.zipIdx_cons, List.map_cons, List.sum_cons, sum_zipIdx_ite g j l (k + 1)]
    by_cases hkj : k = j
    · subst hkj
      simp
    · by_cases hle : k + 1 ≤ j
      · have hsub : j - k = (j - (k + 1)) + 1 := by omega
        simp [hkj, hle, show k ≤ j by omega, hsub]
      · simp [hkj, hle, show ¬ k ≤ j by omega]

theorem sum_zipIdx_ite_of_getElem? (g : α × Nat → Nat) {l : List α} {j : Nat} {a : α}
    (h : l[j]? = some a) :
    ((l.zipIdx 0).map fun p => if p.2 = j then g p else 0).sum = g (a, j) := by
  rw [sum_zipIdx_ite, if_pos (Nat.zero_le j), Nat.sub_zero, h]
  rfl

/-- Contributions compared place by place compare in sum. -/
theorem sum_zipIdx_le {f g : α × Nat → Nat} {l : List α} {k : Nat}
    (h : ∀ i (hi : i < l.length), f (l[i], k + i) ≤ g (l[i], k + i)) :
    ((l.zipIdx k).map f).sum ≤ ((l.zipIdx k).map g).sum := by
  apply List.sum_le_sum
  intro p hp
  obtain ⟨hkp, hlt, heq⟩ := List.mem_zipIdx (x := p.1) (i := p.2) hp
  have hi : p.2 - k < l.length := by omega
  have := h (p.2 - k) hi
  rw [show k + (p.2 - k) = p.2 by omega, ← heq] at this
  exact this

/-- A loop that adds one to a counter at each element that passes `P` counts those elements. -/
theorem foldl_counter {β : Type} {f : β → α → β} (g : β → Nat) (P : α → Bool)
    (h : ∀ c x, g (f c x) = g c + if P x then 1 else 0) :
    ∀ (l : List α) (c : β), g (l.foldl f c) = g c + (l.filter P).length
  | [], _ => rfl
  | x :: l, c => by
    rw [List.foldl_cons, foldl_counter g P h l, h, List.filter_cons]
    cases P x
    · simp
    · simp only [if_true, List.length_cons]
      omega

/-- Two lists without repeats whose members passing `p` and `q` are the same count them alike. -/
theorem length_filter_eq_of_mem_iff {l₁ l₂ : List α} (h₁ : l₁.Nodup) (h₂ : l₂.Nodup)
    {p q : α → Bool} (h : ∀ x, x ∈ l₁ ∧ p x = true ↔ x ∈ l₂ ∧ q x = true) :
    (l₁.filter p).length = (l₂.filter q).length :=
  ((List.perm_ext_iff_of_nodup (h₁.filter p) (h₂.filter q)).mpr fun x => by
    simp only [List.mem_filter]
    exact h x).length_eq

/-- The place after place `i`, `P` places to a page: the next slot of the same page, or, after
the last slot, the first slot of the next page. -/
theorem div_mod_succ {P : Nat} (hP : 0 < P) (i : Nat) :
    (i % P + 1 < P ∧ (i + 1) / P = i / P ∧ (i + 1) % P = i % P + 1) ∨
      (i % P + 1 = P ∧ (i + 1) / P = i / P + 1 ∧ (i + 1) % P = 0) := by
  have hdiv := Nat.div_add_mod i P
  have hlt := Nat.mod_lt i hP
  rcases Nat.lt_or_ge (i % P + 1) P with hr | hr
  · left
    have hi : i + 1 = i % P + 1 + P * (i / P) := by omega
    refine ⟨hr, ?_, ?_⟩
    · rw [hi, Nat.add_mul_div_left _ _ hP, Nat.div_eq_of_lt hr, Nat.zero_add]
    · rw [hi, Nat.add_mul_mod_self_left, Nat.mod_eq_of_lt hr]
  · right
    have hi : i + 1 = P * (i / P + 1) := by
      rw [Nat.mul_add, Nat.mul_one]
      omega
    refine ⟨by omega, ?_, ?_⟩
    · rw [hi, Nat.mul_div_cancel_left _ hP]
    · rw [hi, Nat.mul_mod_right]

/-- `DIV_ROUND_UP(n, K)` pages of `K` places hold `n` places, and all but the last are full. -/
theorem div_round_up_bounds {K : Nat} (hK : 0 < K) (n : Nat) :
    n ≤ (n + K - 1) / K * K ∧ ((n + K - 1) / K - 1) * K ≤ n := by
  have hdm := Nat.div_add_mod (n + K - 1) K
  have hmod := Nat.mod_lt (n + K - 1) hK
  rw [Nat.sub_one_mul, Nat.mul_comm]
  omega

/-- Rounding `n` places of `s` bytes up to pages of `s * K` bytes is rounding them up to pages
of `K` places. -/
theorem div_round_up_mul {s K : Nat} (hs : 0 < s) (hK : 0 < K) (n : Nat) :
    (n * s + s * K - 1) / (s * K) = (n + K - 1) / K := by
  have hnum : n * s + s * K - 1 = (s - 1) + (n + K - 1) * s := by
    obtain ⟨s', rfl⟩ : ∃ s', s = s' + 1 := ⟨s - 1, by omega⟩
    obtain ⟨K', rfl⟩ : ∃ K', K = K' + 1 := ⟨K - 1, by omega⟩
    rw [show n + (K' + 1) - 1 = n + K' by omega, Nat.add_sub_cancel, Nat.mul_comm (s' + 1)]
    simp only [Nat.add_mul, Nat.mul_add, Nat.mul_one, Nat.one_mul]
    omega
  rw [hnum, ← Nat.div_div_eq_div_mul, Nat.add_mul_div_right _ _ hs,
    Nat.div_eq_of_lt (by omega : s - 1 < s), Nat.zero_add]

end TuxOnIceFastboot.Lib
