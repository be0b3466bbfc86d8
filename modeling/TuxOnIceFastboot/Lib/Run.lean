import Mathlib

/-!
# Runs of a system of atomic steps

A system whose atomic steps are given by `step : σ → α → Option σ` (`none` where action `a`
cannot happen in state `s`) reaches the states `Reachable step init`: any sequence of actions,
so every interleaving of the steps of several threads when the actions name what each thread
does. `List.foldlM step s as` runs a given sequence, and its end is reachable
(`Reachable.foldlM`). A property that holds initially and that every step keeps holds in every
reachable state (`Reachable.invariant`); where every step also lowers a measure, every reachable
state goes on to one where no step is possible (`Reachable.exists_stuck`).

A loop over a list whose body can stop it is `List.foldlM` in `Except ε`; a property of the state
and of the elements still to come that every step that goes on keeps holds at the end of a loop
that goes on to the end (`foldlM_except_invariant`). A run in `Option` keeps a property of the
state and of the elements done so far that every step keeps (`foldlM_option_invariant`).
-/

namespace TuxOnIceFastboot.Lib

variable {σ α : Type} (step : σ → α → Option σ)

/-- The states that the steps reach from `init`. -/
inductive Reachable (init : σ) : σ → Prop
  | init : Reachable init init
  | step {s t : σ} (a : α) : Reachable init s → step s a = some t → Reachable init t

variable {step}

/-- A run from a reachable state ends in a reachable state. -/
theorem Reachable.foldlM {init s t : σ} (hs : Reachable step init s) (as : List α)
    (hrun : as.foldlM step s = some t) : Reachable step init t := by
  induction as generalizing s with
  | nil =>
    cases hrun
    exact hs
  | cons a as ih =>
    rw [List.foldlM_cons] at hrun
    obtain ⟨s', hs', hrest⟩ := Option.bind_eq_some_iff.mp hrun
    exact ih (hs.step a hs') hrest

theorem Reachable.trans {init s t : σ} (hs : Reachable step init s) (ht : Reachable step s t) :
    Reachable step init t := by
  induction ht with
  | init => exact hs
  | step a _ hstep ih => exact ih.step a hstep

/-- A property of the initial state that every step keeps holds in every reachable state. -/
theorem Reachable.invariant {init s : σ} {P : σ → Prop} (h0 : P init)
    (hstep : ∀ s a t, P s → step s a = some t → P t) (h : Reachable step init s) : P s := by
  induction h with
  | init => exact h0
  | step a _ ht ih => exact hstep _ a _ ih ht

/-- Where every step from a state of an invariant keeps it and lowers a measure, each state of
the invariant reaches one from which no step is possible. -/
theorem Reachable.exists_stuck {P : σ → Prop} (μ : σ → Nat)
    (hstep : ∀ s a t, P s → step s a = some t → P t ∧ μ t < μ s) {s : σ} (hs : P s) :
    ∃ t, Reachable step s t ∧ ∀ a, step t a = none := by
  -- strong induction on the measure: a step leads to a state of lower measure
  induction hμ : μ s using Nat.strong_induction_on generalizing s with
  | _ n ih =>
    by_cases hstuck : ∀ a, step s a = none
    · exact ⟨s, .init, hstuck⟩
    · obtain ⟨a, ha⟩ := not_forall.mp hstuck
      obtain ⟨t, ht⟩ := Option.ne_none_iff_exists'.mp ha
      obtain ⟨hPt, hlt⟩ := hstep s a t hs ht
      obtain ⟨u, hu, hustuck⟩ := ih (μ t) (hμ ▸ hlt) hPt rfl
      exact ⟨u, (Reachable.init.step a ht).trans hu, hustuck⟩

/-- A property of the state and of the elements still to come that every step that goes on keeps
holds at the end of a loop that goes on to the end. -/
theorem foldlM_except_invariant {ε : Type} {f : σ → α → Except ε σ} {P : List α → σ → Prop}
    (hstep : ∀ a l s s', P (a :: l) s → f s a = .ok s' → P l s') :
    ∀ {l : List α} {s t : σ}, P l s → l.foldlM f s = .ok t → P [] t
  | [], _, _, h, hrun => by
    cases hrun
    exact h
  | a :: l, s, _, h, hrun => by
    rw [List.foldlM_cons] at hrun
    cases hs : f s a with
    | error e =>
      rw [hs] at hrun
      cases hrun
    | ok s' =>
      rw [hs] at hrun
      exact foldlM_except_invariant hstep (hstep a l s s' h hs) hrun

/-- A property of the state and of the elements done so far that every step keeps holds at the
end of a run that goes on to the end. -/
theorem foldlM_option_invariant {f : σ → α → Option σ} {P : List α → σ → Prop}
    (hstep : ∀ done a s s', P done s → f s a = some s' → P (done ++ [a]) s') :
    ∀ {l done : List α} {s t : σ}, P done s → l.foldlM f s = some t → P (done ++ l) t
  | [], done, _, _, h, hrun => by
    cases hrun
    simpa using h
  | a :: l, done, s, _, h, hrun => by
    rw [List.foldlM_cons] at hrun
    obtain ⟨s', hs', hrest⟩ := Option.bind_eq_some_iff.mp hrun
    simpa using foldlM_option_invariant hstep (hstep done a s s' h hs') hrest

end TuxOnIceFastboot.Lib
