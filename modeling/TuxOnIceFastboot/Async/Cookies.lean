import TuxOnIceFastboot.Async.State

/-!
# What the cookies guarantee

`AsyncInv` holds in every reachable state (`asyncInv_reachable`): the `k`-th call gets cookie `k`;
every issued cookie is in exactly one place, queued, in a running function, or returned
(`cookieTokens`); the pending list and each running list are sorted, every running entry below
every pending one; and a queued call that has not returned is on the pending list or on its
domain's running list. From it, a wait of `async_synchronize_cookie_domain(cookie, running)` that
ends finds every queued function of its domain below `cookie` returned
(`AsyncInv.doneBefore_queued`).

A function that `__async_schedule` runs itself is on no list, and the wait does not see it: in
the state right after such a call, `async_synchronize_cookie_domain` and
`async_synchronize_full` may return while it still runs (`synchronous_call_not_awaited`).
-/

namespace TuxOnIceFastboot.Async

open TuxOnIceFastboot.Lib

variable {δ : Type}

/-- The cookie of the function a busy thread runs, while it has not returned. -/
def Job.calling : Job δ → Option Nat
  | .callSync cookie _ => some cookie
  | .callEntry e => some e.cookie
  | .freeEntry _ => none

/-- Where the issued cookies are: queued, in a running function, or returned. -/
def cookieTokens (s : AsyncState δ) : List Nat :=
  s.asyncPending.map AsyncEntry.cookie ++ s.busy.filterMap Job.calling ++ s.returned

/-- The invariant of `kernel/async.c`. -/
structure AsyncInv (s : AsyncState δ) : Prop where
  one_le_next : 1 ≤ s.nextCookie
  issued_cookies : s.issued.map Call.cookie = List.range' 1 (s.nextCookie - 1)
  tokens_perm : (cookieTokens s).Perm (List.range' 1 (s.nextCookie - 1))
  pending_sorted : (s.asyncPending.map AsyncEntry.cookie).Pairwise (· < ·)
  running_sorted : ∀ d, ((s.running d).map AsyncEntry.cookie).Pairwise (· < ·)
  running_lt_pending : ∀ d, ∀ e ∈ s.running d, ∀ e' ∈ s.asyncPending, e.cookie < e'.cookie
  running_lt_next : ∀ d, ∀ e ∈ s.running d, e.cookie < s.nextCookie
  queued : ∀ call ∈ s.issued, call.synchronous = false → call.cookie ∉ s.returned →
    ⟨call.cookie, call.running⟩ ∈ s.asyncPending ∨
      ⟨call.cookie, call.running⟩ ∈ s.running call.running
  freed_returned : ∀ e, Job.freeEntry e ∈ s.busy → e.cookie ∈ s.returned

section Invariant

variable {s t : AsyncState δ}

theorem range'_next {n : Nat} (h : 1 ≤ n) :
    List.range' 1 (n + 1 - 1) = List.range' 1 (n - 1) ++ [n] := by
  rw [show n + 1 - 1 = n - 1 + 1 by omega, List.range'_concat]
  congr 2
  omega

theorem AsyncInv.pending_lt_next (hinv : AsyncInv s) : ∀ e ∈ s.asyncPending, e.cookie < s.nextCookie := by
  intro e he
  have hmem : e.cookie ∈ cookieTokens s := by
    simp only [cookieTokens, List.mem_append, List.mem_map]
    exact .inl (.inl ⟨e, he, rfl⟩)
  have := List.mem_range'_1.mp (hinv.tokens_perm.mem_iff.mp hmem)
  omega

theorem asyncInv_init (b : Bool) : AsyncInv (asyncInit (δ := δ) b) where
  one_le_next := Nat.le_refl 1
  issued_cookies := rfl
  tokens_perm := List.Perm.refl _
  pending_sorted := List.Pairwise.nil
  running_sorted := fun _ => List.Pairwise.nil
  running_lt_pending := fun _ _ h => by cases h
  running_lt_next := fun _ _ h => by cases h
  queued := fun _ h => by cases h
  freed_returned := fun _ h => by cases h

theorem perm_snoc_of_count {l l' R : List Nat} {x : Nat} (h : l.Perm R)
    (hc : ∀ k, l'.count k = l.count k + [x].count k) : l'.Perm (R ++ [x]) := by
  refine List.perm_iff_count.mpr fun k => ?_
  rw [hc k, List.count_append, h.count_eq]

theorem mem_update_append {f : δ → List (AsyncEntry δ)} {a d : δ} {x y : AsyncEntry δ}
    [DecidableEq δ] :
    x ∈ Function.update f a (f a ++ [y]) d ↔ x ∈ f d ∨ (d = a ∧ x = y) := by
  rw [Function.update_apply]
  split_ifs with hd
  · subst hd
    simp
  · simp [hd]

theorem mem_of_mem_update_erase {f : δ → List (AsyncEntry δ)} {a d : δ} {x y : AsyncEntry δ}
    [DecidableEq δ] (h : x ∈ Function.update f a ((f a).erase y) d) : x ∈ f d := by
  rw [Function.update_apply] at h
  split_ifs at h with hd
  · subst hd
    exact List.erase_subset h
  · exact h

theorem head_le_of_sorted {x : AsyncEntry δ} {l : List (AsyncEntry δ)}
    (h : ((x :: l).map AsyncEntry.cookie).Pairwise (· < ·)) {y : AsyncEntry δ} (hy : y ∈ x :: l) :
    x.cookie ≤ y.cookie := by
  rw [List.map_cons, List.pairwise_cons] at h
  rcases List.mem_cons.mp hy with rfl | hy
  · exact Nat.le_refl _
  · exact Nat.le_of_lt (h.1 _ (List.mem_map_of_mem hy))

theorem lowestInProgress_cases (s : AsyncState δ) (running : δ) :
    (∃ x rest, s.running running = x :: rest ∧ lowestInProgress s running = x.cookie) ∨
    (s.running running = [] ∧ ∃ y rest, s.asyncPending = y :: rest ∧
      lowestInProgress s running = y.cookie) ∨
    (s.running running = [] ∧ s.asyncPending = [] ∧ lowestInProgress s running = s.nextCookie) := by
  rcases hrun : s.running running with _ | ⟨x, rest⟩
  · rcases hpend : s.asyncPending with _ | ⟨y, rest⟩
    · exact .inr (.inr ⟨rfl, rfl, by simp [lowestInProgress, hrun, hpend]⟩)
    · exact .inr (.inl ⟨rfl, y, rest, rfl, by simp [lowestInProgress, hrun, hpend]⟩)
  · exact .inl ⟨x, rest, rfl, by simp [lowestInProgress, hrun]⟩

/-- When `async_synchronize_cookie_domain(cookie, running)` may return, every function queued in
the domain with a cookie below `cookie` has returned. -/
theorem AsyncInv.doneBefore_queued (hinv : AsyncInv s) {cookie : Nat} {running : δ}
    (hret : synchronizeCookieDomainReturns s cookie running = true) :
    ∀ call ∈ s.issued, call.running = running → call.cookie < cookie →
      call.synchronous = false → call.cookie ∈ s.returned := by
  intro call hcall hd hlt hasync
  by_contra hnot
  have hq := hinv.queued call hcall hasync hnot
  rw [hd] at hq
  have hle : cookie ≤ lowestInProgress s running := by
    simpa [synchronizeCookieDomainReturns] using hret
  -- the cookie `__lowest_in_progress` reports is at or below the call's
  rcases lowestInProgress_cases s running with
    ⟨x, rest, hrun, hlow⟩ | ⟨hrun, y, rest, hpend, hlow⟩ | ⟨hrun, hpend, -⟩
  · have hx : x ∈ s.running running := by
      rw [hrun]
      exact List.mem_cons_self
    rcases hq with hq | hq
    · have := hinv.running_lt_pending running x hx _ hq
      dsimp only at this
      omega
    · rw [hrun] at hq
      have := head_le_of_sorted (hrun ▸ hinv.running_sorted running) hq
      dsimp only at this
      omega
  · rw [hrun, hpend] at hq
    rcases hq with hq | hq
    · have := head_le_of_sorted (hpend ▸ hinv.pending_sorted) hq
      dsimp only at this
      omega
    · cases hq
  · rw [hrun, hpend] at hq
    rcases hq with hq | hq <;> cases hq

end Invariant

section Step

variable [DecidableEq δ] {s t : AsyncState δ}

theorem AsyncInv.schedule (hinv : AsyncInv s) {running : δ} {allocOk : Bool}
    (h : asyncStep s (.schedule running allocOk) = some t) : AsyncInv t := by
  have hone := hinv.one_le_next
  have hpend := hinv.pending_lt_next
  have hissued : ∀ synchronous : Bool,
      (s.issued ++ [Call.mk s.nextCookie running synchronous]).map Call.cookie =
        List.range' 1 (s.nextCookie + 1 - 1) := by
    intro synchronous
    rw [List.map_append, hinv.issued_cookies, range'_next hone]
    rfl
  simp only [asyncStep] at h
  split_ifs at h
  · -- run synchronously: a new cookie, in the caller's thread and on no list
    cases h
    exact {
      one_le_next := by dsimp only; omega
      issued_cookies := hissued true
      tokens_perm := by
        dsimp only
        rw [range'_next hone]
        refine perm_snoc_of_count hinv.tokens_perm fun k => ?_
        simp [cookieTokens, List.count_append, List.count_cons, Job.calling]
        omega
      pending_sorted := hinv.pending_sorted
      running_sorted := hinv.running_sorted
      running_lt_pending := hinv.running_lt_pending
      running_lt_next := fun d e he => by
        have := hinv.running_lt_next d e he
        dsimp only
        omega
      queued := by
        intro call hcall hasync hret
        simp only [List.mem_append, List.mem_singleton] at hcall
        rcases hcall with hcall | rfl
        · exact hinv.queued call hcall hasync hret
        · cases hasync
      freed_returned := fun e he => by
        simp only [List.mem_append, List.mem_singleton, reduceCtorEq, or_false] at he
        exact hinv.freed_returned e he }
  · -- queued on `async_pending`
    cases h
    exact {
      one_le_next := by dsimp only; omega
      issued_cookies := hissued false
      tokens_perm := by
        dsimp only
        rw [range'_next hone]
        refine perm_snoc_of_count hinv.tokens_perm fun k => ?_
        simp [cookieTokens, List.count_append, List.count_cons]
        omega
      pending_sorted := by
        dsimp only
        rw [List.map_append, List.map_singleton, List.pairwise_append]
        refine ⟨hinv.pending_sorted, List.pairwise_singleton _ _, ?_⟩
        simp only [List.mem_map, List.mem_singleton]
        rintro _ ⟨e, he, rfl⟩ _ rfl
        exact hpend e he
      running_sorted := hinv.running_sorted
      running_lt_pending := by
        intro d e he e' he'
        simp only [List.mem_append, List.mem_singleton] at he'
        rcases he' with he' | rfl
        · exact hinv.running_lt_pending d e he e' he'
        · exact hinv.running_lt_next d e he
      running_lt_next := fun d e he => by
        have := hinv.running_lt_next d e he
        dsimp only
        omega
      queued := by
        intro call hcall hasync hret
        simp only [List.mem_append, List.mem_singleton] at hcall ⊢
        rcases hcall with hcall | rfl
        · rcases hinv.queued call hcall hasync hret with hq | hq
          · exact .inl (.inl hq)
          · exact .inr hq
        · exact .inl (.inr rfl)
      freed_returned := hinv.freed_returned }

theorem AsyncInv.runOneEntry (hinv : AsyncInv s) (h : asyncStep s .runOneEntry = some t) :
    AsyncInv t := by
  simp only [asyncStep] at h
  split at h
  · cases h
    exact hinv
  · rename_i e rest hpending
    cases h
    have hsorted := hinv.pending_sorted
    rw [hpending, List.map_cons, List.pairwise_cons] at hsorted
    have hmem : ∀ y ∈ rest, y ∈ s.asyncPending := fun y hy => by
      rw [hpending]
      exact List.mem_cons_of_mem _ hy
    have he : e ∈ s.asyncPending := by
      rw [hpending]
      exact List.mem_cons_self
    exact {
      one_le_next := hinv.one_le_next
      issued_cookies := hinv.issued_cookies
      tokens_perm := by
        refine (List.perm_iff_count.mpr fun k => ?_).trans hinv.tokens_perm
        simp [cookieTokens, hpending, List.count_append, List.count_cons, Job.calling]
        omega
      pending_sorted := hsorted.2
      running_sorted := fun d => by
        dsimp only
        rw [Function.update_apply]
        split_ifs with hd
        · -- `e` goes after every running entry, which are all below the pending ones
          rw [List.map_append, List.map_singleton, List.pairwise_append]
          refine ⟨hinv.running_sorted _, List.pairwise_singleton _ _, ?_⟩
          simp only [List.mem_map, List.mem_singleton]
          rintro _ ⟨x, hx, rfl⟩ _ rfl
          exact hinv.running_lt_pending _ x hx e he
        · exact hinv.running_sorted d
      running_lt_pending := fun d x hx y hy => by
        rcases mem_update_append.mp hx with hx | ⟨-, rfl⟩
        · exact hinv.running_lt_pending d x hx y (hmem y hy)
        · exact hsorted.1 y.cookie (List.mem_map_of_mem hy)
      running_lt_next := fun d x hx => by
        rcases mem_update_append.mp hx with hx | ⟨-, rfl⟩
        · exact hinv.running_lt_next d x hx
        · exact hinv.pending_lt_next x he
      queued := fun call hcall hasync hret => by
        rcases hinv.queued call hcall hasync hret with hq | hq
        · rw [hpending, List.mem_cons] at hq
          rcases hq with heq | hq
          · -- the call's entry is the one moved to its running list
            refine .inr (mem_update_append.mpr (.inr ⟨?_, heq⟩))
            rw [← heq]
          · exact .inl hq
        · exact .inr (mem_update_append.mpr (.inl hq))
      freed_returned := fun x hx => by
        simp only [List.mem_append, List.mem_singleton, reduceCtorEq, or_false] at hx
        exact hinv.freed_returned x hx }

theorem AsyncInv.funcReturn (hinv : AsyncInv s) {job : Job δ}
    (h : asyncStep s (.funcReturn job) = some t) : AsyncInv t := by
  simp only [asyncStep] at h
  split_ifs at h with hjob
  -- the returning function's cookie moves from `busy` to `returned`
  have hcount := fun k => ((List.perm_cons_erase hjob).filterMap Job.calling).count_eq k
  cases job with
  | callSync cookie running =>
    cases h
    exact {
      one_le_next := hinv.one_le_next
      issued_cookies := hinv.issued_cookies
      tokens_perm := by
        refine (List.perm_iff_count.mpr fun k => ?_).trans hinv.tokens_perm
        have := hcount k
        simp only [List.filterMap_cons, Job.calling, List.count_cons] at this
        simp only [cookieTokens, List.count_append, List.count_cons, List.count_nil, this]
        omega
      pending_sorted := hinv.pending_sorted
      running_sorted := hinv.running_sorted
      running_lt_pending := hinv.running_lt_pending
      running_lt_next := hinv.running_lt_next
      queued := fun call hcall hasync hret =>
        hinv.queued call hcall hasync fun h => hret (List.mem_append_left _ h)
      freed_returned := fun e he =>
        List.mem_append_left _ (hinv.freed_returned e (List.mem_of_mem_erase he)) }
  | callEntry e =>
    cases h
    exact {
      one_le_next := hinv.one_le_next
      issued_cookies := hinv.issued_cookies
      tokens_perm := by
        refine (List.perm_iff_count.mpr fun k => ?_).trans hinv.tokens_perm
        have := hcount k
        simp only [List.filterMap_cons, Job.calling, List.count_cons] at this
        simp only [cookieTokens, List.filterMap_append, List.filterMap_cons, List.filterMap_nil,
          Job.calling, List.append_nil, List.count_append, List.count_cons, List.count_nil, this]
        omega
      pending_sorted := hinv.pending_sorted
      running_sorted := hinv.running_sorted
      running_lt_pending := hinv.running_lt_pending
      running_lt_next := hinv.running_lt_next
      queued := fun call hcall hasync hret =>
        hinv.queued call hcall hasync fun h => hret (List.mem_append_left _ h)
      freed_returned := fun x hx => by
        simp only [List.mem_append, List.mem_singleton, Job.freeEntry.injEq] at hx
        rcases hx with hx | rfl
        · exact List.mem_append_left _ (hinv.freed_returned x (List.mem_of_mem_erase hx))
        · exact List.mem_append_right _ (List.mem_singleton_self _) }
  | freeEntry e => cases h

theorem AsyncInv.removeEntry (hinv : AsyncInv s) {e : AsyncEntry δ}
    (h : asyncStep s (.removeEntry e) = some t) : AsyncInv t := by
  simp only [asyncStep] at h
  split_ifs at h with hfree
  cases h
  have hcount := fun k => ((List.perm_cons_erase hfree).filterMap Job.calling).count_eq k
  exact {
    one_le_next := hinv.one_le_next
    issued_cookies := hinv.issued_cookies
    tokens_perm := by
      refine (List.perm_iff_count.mpr fun k => ?_).trans hinv.tokens_perm
      have := hcount k
      simp only [List.filterMap_cons, Job.calling] at this
      simp only [cookieTokens, List.count_append, this]
    pending_sorted := hinv.pending_sorted
    running_sorted := fun d => by
      dsimp only
      rw [Function.update_apply]
      split_ifs
      · exact (hinv.running_sorted _).sublist (List.erase_sublist.map _)
      · exact hinv.running_sorted d
    running_lt_pending := fun d x hx y hy =>
      hinv.running_lt_pending d x (mem_of_mem_update_erase hx) y hy
    running_lt_next := fun d x hx => hinv.running_lt_next d x (mem_of_mem_update_erase hx)
    queued := fun call hcall hasync hret => by
      rcases hinv.queued call hcall hasync hret with hq | hq
      · exact .inl hq
      · -- the removed entry's function has returned, so it is not this call's
        have hne : (⟨call.cookie, call.running⟩ : AsyncEntry δ) ≠ e := by
          rintro rfl
          exact hret (hinv.freed_returned _ hfree)
        refine .inr ?_
        dsimp only
        rw [Function.update_apply]
        split_ifs
        · exact (List.mem_erase_of_ne hne).mpr (by simpa [*] using hq)
        · exact hq
    freed_returned := fun x hx => hinv.freed_returned x (List.mem_of_mem_erase hx) }

/-- Every step keeps the invariant. -/
theorem AsyncInv.step (hinv : AsyncInv s) {a : AsyncAction δ} (h : asyncStep s a = some t) :
    AsyncInv t := by
  cases a with
  | schedule running allocOk => exact hinv.schedule h
  | runOneEntry => exact hinv.runOneEntry h
  | funcReturn job => exact hinv.funcReturn h
  | removeEntry e => exact hinv.removeEntry h

theorem asyncInv_reachable {b : Bool} (h : Reachable asyncStep (asyncInit b) s) : AsyncInv s :=
  h.invariant (asyncInv_init b) fun _ _ _ hinv hstep => hinv.step hstep

end Step

section Sync

variable [DecidableEq δ] {s : AsyncState δ}

/-- In every state reachable from boot: the `k`-th call has cookie `k`; each issued cookie is in
exactly one place, queued, in a running function or returned, so no function runs or returns
twice; each domain's running list is sorted by cookie; and when
`async_synchronize_cookie_domain(cookie, running)` may return, every function queued in domain
`running` with a cookie below `cookie` has returned. -/
theorem async_cookies_in_order {b : Bool} (h : Reachable asyncStep (asyncInit b) s) :
    s.issued.map Call.cookie = List.range' 1 (s.nextCookie - 1) ∧
      (cookieTokens s).Perm (List.range' 1 (s.nextCookie - 1)) ∧ s.returned.Nodup ∧
      (∀ d, ((s.running d).map AsyncEntry.cookie).Pairwise (· < ·)) ∧
      ∀ cookie running, synchronizeCookieDomainReturns s cookie running = true →
        ∀ call ∈ s.issued, call.running = running → call.cookie < cookie →
          call.synchronous = false → call.cookie ∈ s.returned := by
  have hinv := asyncInv_reachable h
  have hnodup : (cookieTokens s).Nodup := hinv.tokens_perm.nodup_iff.mpr List.nodup_range'
  refine ⟨hinv.issued_cookies, hinv.tokens_perm, ?_, hinv.running_sorted,
    fun _ _ hret => hinv.doneBefore_queued hret⟩
  exact (List.nodup_append.mp hnodup).2.1

/-- One call queued in the only domain. -/
def oneQueued : AsyncState Unit :=
  { asyncInit true with
    nextCookie := 2, asyncPending := [⟨1, ()⟩], entryCount := 1, issued := [⟨1, (), false⟩] }

theorem async_cookies_in_order_one_queued :
    Reachable asyncStep (asyncInit true) oneQueued ∧
      oneQueued.issued.map Call.cookie = List.range' 1 (oneQueued.nextCookie - 1) ∧
      (cookieTokens oneQueued).Perm (List.range' 1 (oneQueued.nextCookie - 1)) ∧
      oneQueued.returned.Nodup ∧
      (∀ d, ((oneQueued.running d).map AsyncEntry.cookie).Pairwise (· < ·)) ∧
      ∀ cookie running, synchronizeCookieDomainReturns oneQueued cookie running = true →
        ∀ call ∈ oneQueued.issued, call.running = running → call.cookie < cookie →
          call.synchronous = false → call.cookie ∈ oneQueued.returned := by
  have h : Reachable asyncStep (asyncInit true) oneQueued :=
    Reachable.init.step (.schedule () true) rfl
  exact ⟨h, async_cookies_in_order h⟩

/-- `async_synchronize_cookie_domain` and `async_synchronize_full` may return before a function
with a lower cookie: right after `__async_schedule` falls back to running it in the caller's
thread (here because `kzalloc` failed); and `async_synchronize_full` while an entry of another
domain than `async_running` (here `true`) runs. -/
theorem synchronize_returns_before_call_returns :
    (∃ s, Reachable asyncStep (asyncInit (δ := Bool) true) s ∧
      synchronizeCookieDomainReturns s 2 true = true ∧ synchronizeFullReturns true s = true ∧
      ¬ DoneBefore s 2 true) ∧
    (∃ s, Reachable asyncStep (asyncInit (δ := Bool) true) s ∧
      synchronizeFullReturns true s = true ∧ ¬ DoneBefore s 2 false) := by
  refine ⟨⟨_, Reachable.init.step (.schedule true false) rfl, rfl, rfl, ?_⟩,
    ⟨_, (Reachable.init.step (.schedule false true) rfl).step .runOneEntry rfl, rfl, ?_⟩⟩
  · simp [DoneBefore, asyncInit]
  · simp [DoneBefore, asyncInit]

end Sync

end TuxOnIceFastboot.Async
