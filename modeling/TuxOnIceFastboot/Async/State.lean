import TuxOnIceFastboot.Lib.Run

/-!
# Asynchronous function calls (`kernel/async.c`)

`__async_schedule` gives each call the next sequence cookie. Normally it queues an
`async_entry` on `async_pending`; an async thread's `run_one_entry` moves the first pending entry
to the tail of the running list of the entry's domain, runs the function, and then removes the
entry. When async is disabled, `kzalloc` fails or more than `MAX_WORK` entries exist,
`__async_schedule` instead runs the function itself, in the caller's thread, and no list ever
holds it. `async_synchronize_cookie_domain(cookie, running)` waits until
`__lowest_in_progress(running)`, the first cookie of the domain's running list, else of
`async_pending`, else `next_cookie`, is at least `cookie`.

The state is the one `async_lock` protects, and each action one critical section, or the
return of a function: `asyncStep` is the system and any sequence of actions one interleaving of
any number of threads. The threads inside a scheduled function are `busy`. Two fields are
history rather than state of the source: the calls that got a cookie (`issued`) and the cookies
whose function has returned (`returned`). A domain is the `struct list_head` of its running list,
any type with equality; the function pointers and data are left out, as is the order in which
`async_thread` and `async_manager_thread` start threads, which only decides when
`runOneEntry` happens.
-/

namespace TuxOnIceFastboot.Async

/-- `MAX_WORK`. -/
def maxWork : Nat := 32768

/-- `struct async_entry`: its cookie and its domain (`entry->running`). -/
structure AsyncEntry (δ : Type) where
  cookie : Nat
  running : δ
  deriving DecidableEq, Repr

/-- A thread inside a scheduled function. -/
inductive Job (δ : Type) where
  /-- `__async_schedule` running `ptr(data, newcookie)` itself. -/
  | callSync (cookie : Nat) (running : δ)
  /-- `run_one_entry` at 3), the entry's function running. -/
  | callEntry (e : AsyncEntry δ)
  /-- `run_one_entry` after the function returned, before 4). -/
  | freeEntry (e : AsyncEntry δ)
  deriving DecidableEq, Repr

/-- A call that `__async_schedule` gave a cookie to, and whether it ran the function itself. -/
structure Call (δ : Type) where
  cookie : Nat
  running : δ
  synchronous : Bool
  deriving DecidableEq, Repr

/-- The state of `kernel/async.c`, the threads inside scheduled functions, and the history. -/
structure AsyncState (δ : Type) where
  nextCookie : Nat
  asyncPending : List (AsyncEntry δ)
  running : δ → List (AsyncEntry δ)
  entryCount : Nat
  asyncEnabled : Bool
  busy : List (Job δ)
  issued : List (Call δ)
  returned : List Nat

/-- The atomic steps. -/
inductive AsyncAction (δ : Type) where
  /-- `__async_schedule(ptr, data, running)` up to its return, or up to `ptr(data, newcookie)`
  when it runs the function itself; `allocOk` is whether `kzalloc` succeeded. -/
  | schedule (running : δ) (allocOk : Bool)
  /-- `run_one_entry` 1) and 2), in an async thread. -/
  | runOneEntry
  /-- The function of a busy thread returns. -/
  | funcReturn (job : Job δ)
  /-- `run_one_entry` 4) and 5): the entry off its running list and freed. -/
  | removeEntry (e : AsyncEntry δ)
  deriving DecidableEq, Repr

variable {δ : Type}

/-- The state at boot: `next_cookie = 1`, nothing scheduled, `async_enabled` as `async_init`
left it. -/
def asyncInit (asyncEnabled : Bool) : AsyncState δ :=
  ⟨1, [], fun _ => [], 0, asyncEnabled, [], [], []⟩

/-- `__lowest_in_progress(running)`. -/
def lowestInProgress (s : AsyncState δ) (running : δ) : Nat :=
  match s.running running with
  | e :: _ => e.cookie
  | [] =>
    match s.asyncPending with
    | e :: _ => e.cookie
    | [] => s.nextCookie

/-- `async_synchronize_cookie_domain(cookie, running)` may return in this state: the condition
of its `wait_event` holds. -/
def synchronizeCookieDomainReturns (s : AsyncState δ) (cookie : Nat) (running : δ) : Bool :=
  decide (cookie ≤ lowestInProgress s running)

/-- `async_synchronize_full()` may return in this state, `global` being `async_running`: its
`async_synchronize_cookie(next_cookie)` may return, and its loop test finds both lists empty. -/
def synchronizeFullReturns (global : δ) (s : AsyncState δ) : Bool :=
  synchronizeCookieDomainReturns s s.nextCookie global && (s.running global).isEmpty &&
    s.asyncPending.isEmpty

/-- Every function scheduled in domain `running` with a cookie below `cookie` has returned: what
a return of `async_synchronize_cookie_domain(cookie, running)` is to ensure. -/
def DoneBefore (s : AsyncState δ) (cookie : Nat) (running : δ) : Prop :=
  ∀ call ∈ s.issued, call.running = running → call.cookie < cookie → call.cookie ∈ s.returned

instance [DecidableEq δ] (s : AsyncState δ) (cookie : Nat) (running : δ) :
    Decidable (DoneBefore s cookie running) :=
  inferInstanceAs (Decidable (∀ call ∈ s.issued, _))

section Step

variable [DecidableEq δ]

/-- One atomic step, `none` where the action cannot happen. -/
def asyncStep (s : AsyncState δ) : AsyncAction δ → Option (AsyncState δ)
  | .schedule running allocOk =>
    if !s.asyncEnabled || !allocOk || decide (s.entryCount > maxWork) then
      -- low on memory.. run synchronously
      some { s with
        nextCookie := s.nextCookie + 1
        busy := s.busy ++ [.callSync s.nextCookie running]
        issued := s.issued ++ [⟨s.nextCookie, running, true⟩] }
    else
      some { s with
        nextCookie := s.nextCookie + 1
        asyncPending := s.asyncPending ++ [⟨s.nextCookie, running⟩]
        entryCount := s.entryCount + 1
        issued := s.issued ++ [⟨s.nextCookie, running, false⟩] }
  | .runOneEntry =>
    match s.asyncPending with
    | [] => some s
    | e :: rest =>
      some { s with
        asyncPending := rest
        running := Function.update s.running e.running (s.running e.running ++ [e])
        busy := s.busy ++ [.callEntry e] }
  | .funcReturn job =>
    if job ∈ s.busy then
      match job with
      | .callSync cookie _ =>
        some { s with busy := s.busy.erase job, returned := s.returned ++ [cookie] }
      | .callEntry e =>
        some { s with
          busy := s.busy.erase job ++ [.freeEntry e]
          returned := s.returned ++ [e.cookie] }
      | .freeEntry _ => none
    else none
  | .removeEntry e =>
    if Job.freeEntry e ∈ s.busy then
      some { s with
        running := Function.update s.running e.running ((s.running e.running).erase e)
        entryCount := s.entryCount - 1
        busy := s.busy.erase (.freeEntry e) }
    else none

end Step

end TuxOnIceFastboot.Async
