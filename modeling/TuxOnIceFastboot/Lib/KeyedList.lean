import Mathlib

/-!
# Lists keyed by a field

A list whose elements carry a key, searched for the first element with a given key and
changed in place there, as a `list_for_each_entry` lookup finds an entry and the caller then
writes through the pointer. Where the keys are distinct the list is a finite map from keys to
elements: the search is the map's lookup, a change in place is the map's update, and appending
an element with a new key extends the map.
-/

namespace TuxOnIceFastboot.Lib

section KeyedList

variable {α κ : Type} [DecidableEq κ] (key : α → κ)

/-- The first element whose key is `k`. -/
def findKey (k : κ) (l : List α) : Option α := l.find? fun x => key x = k

/-- `l` with `f` applied to its first element whose key is `k`. -/
def updateKey (k : κ) (f : α → α) : List α → List α
  | [] => []
  | x :: xs => if key x = k then f x :: xs else x :: updateKey k f xs

variable {key} {k : κ} {l : List α} {x : α}

@[simp] theorem findKey_nil (k : κ) : findKey key k [] = none := rfl

theorem findKey_cons (k : κ) (y : α) (ys : List α) :
    findKey key k (y :: ys) = if key y = k then some y else findKey key k ys := by
  by_cases h : key y = k <;> simp [findKey, h]

theorem mem_of_findKey (h : findKey key k l = some x) : x ∈ l := List.mem_of_find?_eq_some h

theorem findKey_eq_none_iff : findKey key k l = none ↔ k ∉ l.map key := by
  simp [findKey, List.find?_eq_none]

theorem findKey_of_mem (hnd : (l.map key).Nodup) (hx : x ∈ l) : findKey key (key x) l = some x := by
  induction l with
  | nil => cases hx
  | cons y ys ih =>
    rw [List.map_cons, List.nodup_cons] at hnd
    rw [findKey_cons]
    rcases List.mem_cons.mp hx with rfl | hxs
    · rw [if_pos rfl]
    · -- `y` has another key than every element after it
      have hne : key y ≠ key x := fun h => hnd.1 (h ▸ List.mem_map_of_mem hxs)
      rw [if_neg hne]
      exact ih hnd.2 hxs

theorem findKey_append_singleton (y : α) :
    findKey key k (l ++ [y]) = (findKey key k l).or (if key y = k then some y else none) := by
  induction l with
  | nil => simp [findKey_cons]
  | cons z zs ih =>
    rw [List.cons_append, findKey_cons, findKey_cons, ih]
    split <;> rfl

section Update

variable {f : α → α}

theorem length_updateKey : (updateKey key k f l).length = l.length := by
  induction l with
  | nil => rfl
  | cons y ys ih =>
    unfold updateKey
    split <;> simp [ih]

theorem map_key_updateKey (hf : ∀ y, key (f y) = key y) :
    (updateKey key k f l).map key = l.map key := by
  induction l with
  | nil => rfl
  | cons y ys ih =>
    unfold updateKey
    split <;> simp [hf, ih]

theorem findKey_updateKey (hf : ∀ y, key (f y) = key y) (j : κ) :
    findKey key j (updateKey key k f l) =
      if j = k then (findKey key k l).map f else findKey key j l := by
  induction l with
  | nil => split <;> rfl
  | cons y ys ih =>
    unfold updateKey
    by_cases hy : key y = k
    · -- the first element with key `k` is `y`
      rw [if_pos hy, findKey_cons, hf]
      by_cases hj : j = k
      · subst hj
        rw [if_pos hy, if_pos rfl, findKey_cons, if_pos hy]
        rfl
      · have hyj : key y ≠ j := fun h => hj (h.symm.trans hy)
        rw [if_neg hyj, if_neg hj, findKey_cons, if_neg hyj]
    · rw [if_neg hy, findKey_cons, ih]
      by_cases hj : j = k
      · subst hj
        rw [if_neg hy, if_pos rfl, if_pos rfl, findKey_cons, if_neg hy]
      · rw [if_neg hj, if_neg hj, findKey_cons]

theorem mem_updateKey {y : α} (hy : y ∈ updateKey key k f l) : y ∈ l ∨ ∃ z ∈ l, y = f z := by
  induction l with
  | nil => cases hy
  | cons z zs ih =>
    unfold updateKey at hy
    split at hy
    · rcases List.mem_cons.mp hy with rfl | hy
      · exact Or.inr ⟨z, List.mem_cons_self, rfl⟩
      · exact Or.inl (List.mem_cons_of_mem _ hy)
    · rcases List.mem_cons.mp hy with rfl | hy
      · exact Or.inl List.mem_cons_self
      · rcases ih hy with h | ⟨w, hw, rfl⟩
        · exact Or.inl (List.mem_cons_of_mem _ h)
        · exact Or.inr ⟨w, List.mem_cons_of_mem _ hw, rfl⟩

theorem countP_updateKey (p : α → Bool) (hx : findKey key k l = some x) :
    (updateKey key k f l).countP p + (if p x then 1 else 0) =
      l.countP p + (if p (f x) then 1 else 0) := by
  induction l with
  | nil => cases hx
  | cons y ys ih =>
    rw [findKey_cons] at hx
    unfold updateKey
    split
    · next hy =>
      rw [if_pos hy] at hx
      cases hx
      simp only [List.countP_cons]
      omega
    · next hy =>
      rw [if_neg hy] at hx
      simp only [List.countP_cons]
      have := ih hx
      omega

end Update

end KeyedList

theorem nodup_map_append_singleton {α κ : Type} {key : α → κ} {l : List α} {y : α}
    (hnd : (l.map key).Nodup) (hy : key y ∉ l.map key) : ((l ++ [y]).map key).Nodup := by
  rw [List.map_append, List.map_singleton, List.nodup_append]
  refine ⟨hnd, List.nodup_singleton _, ?_⟩
  intro a ha b hb hab
  rw [List.mem_singleton] at hb
  rw [hab, hb] at ha
  exact hy ha

theorem countP_and_add_countP_and_not {α : Type} (p q : α → Bool) (l : List α) :
    l.countP (fun x => p x && q x) + l.countP (fun x => p x && !q x) = l.countP p := by
  induction l with
  | nil => rfl
  | cons y ys ih =>
    simp only [List.countP_cons]
    cases p y <;> cases q y <;> simp <;> omega

end TuxOnIceFastboot.Lib
