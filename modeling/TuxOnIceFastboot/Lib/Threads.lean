import Mathlib

/-!
# Threads as a list of local states

A system of threads keeps each thread's local state at its index in a list, and a step of
thread `t` replaces the entry at `t`. What is counted or collected over all threads changes
by the old entry's share and the new one's: for a sum (`sum_map_set`) and for the items the
threads hold (`filterMap_set_perm`). A round in which each thread of a list without repeats
steps once leaves every thread of the round in the state its step made from its state before
the round, and every other thread as it was (`getElem?_foldl_set`).
-/

namespace TuxOnIceFastboot.Lib

variable {α β : Type} {l : List α} {t : Nat} {a : α}

theorem eq_take_cons_drop (h : l[t]? = some a) : l = l.take t ++ a :: l.drop (t + 1) := by
  obtain ⟨ht, rfl⟩ := List.getElem?_eq_some_iff.mp h
  rw [← List.drop_eq_getElem_cons ht, List.take_append_drop]

theorem set_eq_take_cons_drop (h : l[t]? = some a) (b : α) :
    l.set t b = l.take t ++ b :: l.drop (t + 1) := by
  obtain ⟨ht, -⟩ := List.getElem?_eq_some_iff.mp h
  rw [List.set_eq_take_append_cons_drop, if_pos ht]

theorem sum_map_set (h : l[t]? = some a) (f : α → Nat) (b : α) :
    ((l.set t b).map f).sum + f a = (l.map f).sum + f b := by
  rw [set_eq_take_cons_drop h]
  conv_rhs => rw [eq_take_cons_drop h]
  simp only [List.map_append, List.map_cons, List.sum_append, List.sum_cons]
  omega

theorem le_sum_map (h : l[t]? = some a) (f : α → Nat) : f a ≤ (l.map f).sum := by
  rw [eq_take_cons_drop h]
  simp only [List.map_append, List.map_cons, List.sum_append, List.sum_cons]
  omega

theorem add_le_sum_map {u : Nat} {b : α} (ht : l[t]? = some a) (hu : l[u]? = some b)
    (htu : t ≠ u) (f : α → Nat) : f a + f b ≤ (l.map f).sum := by
  have hlt : ∀ {t u : Nat} {a b : α}, l[t]? = some a → l[u]? = some b → t < u →
      f a + f b ≤ (l.map f).sum := by
    intro t u a b ht hu htu
    -- `b` is in the part after `t`
    have hb : (l.drop (t + 1))[u - (t + 1)]? = some b := by
      rw [List.getElem?_drop, show t + 1 + (u - (t + 1)) = u by omega]
      exact hu
    have hfb := le_sum_map hb f
    rw [eq_take_cons_drop ht]
    simp only [List.map_append, List.map_cons, List.sum_append, List.sum_cons]
    omega
  rcases Nat.lt_or_gt_of_ne htu with h | h
  · exact hlt ht hu h
  · have := hlt hu ht h
    omega

theorem sum_map_add_le {f g : α → Nat} (hfg : ∀ x, f x ≤ g x) (ht : l[t]? = some a) :
    (l.map f).sum + g a ≤ (l.map g).sum + f a := by
  have hle : ∀ l' : List α, (l'.map f).sum ≤ (l'.map g).sum := fun l' =>
    List.sum_le_sum fun x _ => hfg x
  rw [eq_take_cons_drop ht]
  simp only [List.map_append, List.map_cons, List.sum_append, List.sum_cons]
  have h1 := hle (l.take t)
  have h2 := hle (l.drop (t + 1))
  omega

theorem map_set_of_eq {f : α → β} (ht : l[t]? = some a) {b : α} (hb : f b = f a) :
    (l.set t b).map f = l.map f := by
  rw [set_eq_take_cons_drop ht]
  conv_rhs => rw [eq_take_cons_drop ht]
  simp [hb]

theorem filterMap_set_perm [DecidableEq β] (h : l[t]? = some a) (f : α → Option β) (b : α) :
    ((l.set t b).filterMap f ++ (f a).toList).Perm (l.filterMap f ++ (f b).toList) := by
  rw [set_eq_take_cons_drop h]
  conv_rhs => rw [eq_take_cons_drop h]
  generalize l.take t = A
  generalize l.drop (t + 1) = B
  refine List.perm_iff_count.mpr fun x => ?_
  simp only [List.filterMap_append, List.filterMap_cons, List.count_append]
  cases f a <;> cases f b <;> simp [List.count_cons] <;> omega

theorem forall_mem_set {P : α → Prop} (h : ∀ x ∈ l, P x) {b : α} (hb : P b) :
    ∀ x ∈ l.set t b, P x := by
  intro x hx
  rcases List.mem_or_eq_of_mem_set hx with hx | rfl
  · exact h x hx
  · exact hb

/-- A round over distinct threads, the one at `j` replaced by `g j` of its entry: every thread
of the round has taken its step from its state before the round, every other is as it was. -/
theorem getElem?_foldl_set {γ : Type} (g : Nat → α → α) {F : List α × γ → Nat → List α × γ}
    (hF : ∀ acc j, (F acc j).1 = acc.1[j]?.elim acc.1 fun x => acc.1.set j (g j x))
    (js : List Nat) (hnd : js.Nodup) (acc : List α × γ) (i : Nat) :
    (js.foldl F acc).1[i]? = if i ∈ js then acc.1[i]?.map (g i) else acc.1[i]? := by
  induction js generalizing acc with
  | nil => rfl
  | cons j js ih =>
    rw [List.nodup_cons] at hnd
    rw [List.foldl_cons, ih hnd.2, hF]
    by_cases hij : i = j
    · -- thread `j` steps in this round only, so later steps leave its entry
      subst hij
      rw [if_neg hnd.1, if_pos List.mem_cons_self]
      cases hx : acc.1[i]? with
      | none => rw [Option.elim_none, hx, Option.map_none]
      | some x =>
        have hi : i < acc.1.length := (List.getElem?_eq_some_iff.mp hx).1
        rw [Option.elim_some, List.getElem?_set_self hi, Option.map_some]
    · have hmem : i ∈ j :: js ↔ i ∈ js := by simp [hij]
      have hold : (acc.1[j]?.elim acc.1 fun x => acc.1.set j (g j x))[i]? = acc.1[i]? := by
        cases acc.1[j]? with
        | none => rfl
        | some x => exact List.getElem?_set_ne (Ne.symm hij)
      simp only [hmem, hold]

end TuxOnIceFastboot.Lib
