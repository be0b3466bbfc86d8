import TuxOnIceFastboot.Base
import TuxOnIceFastboot.Lib.Run
import TuxOnIceFastboot.Lib.Threads

/-!
# Starting and finishing anything (`tuxonice_highlevel.c`)

Every TuxOnIce operation runs between `toi_start_anything(hibernate_or_resume)` and
`toi_finish_anything(hibernate_or_resume)`. Starting takes `tuxonice_in_use`, sets the kernel
address limit and, to hibernate or resume, takes `pm_mutex` and the snapshot device
(`snapshot_device_available`), runs the pre-hibernate command for a cycle, takes a reference on
every module, saves and clears `block_dump`, pins the task on one CPU and initialises the
modules; an error unwinds through the labels `early_init_err`, `prehibernate_err` and
`snapshotdevice_unavailable` and returns `-EBUSY`. Finishing gives everything back.

The callers are the tasks of a system (`AnyState`): a sysfs store or show of an entry
(`toi_attr_store` and `toi_attr_show`, with the entry's flags), the resume at boot
(`_toi_try_resume`), a hibernation asked through `/sys/power/state` (`_toi_try_hibernate`,
which starts only if `tuxonice_in_use` is free, as it is held when it is the write side effect
of the `do_hibernate` entry), and a user of `/dev/snapshot` (`snapshot_open` and
`snapshot_release` in `user.c`), which shares `pm_mutex` and the device. A step of a task runs
from one `mutex_lock` to the next (`taskStep`): what lies between touches only the task, the
state that the mutexes it holds protect, and the atomic `snapshot_device_available`. The rest of
the kernel answers each step (`Replies`): the pre-hibernate command's status, whether
`try_module_get` succeeds, what the modules' `initialise` returns and what `snapshot_open` finds.

Over every interleaving, the mutexes and the device are each held by at most one task, and
the device is never lost or duplicated; a task that leaves gives back its address limit, and
no module stays initialised (`AnyInv`). Two things are not given back: an error after
`toi_get_modules` keeps the references it took, and one after `block_dump` was cleared sets
`block_dump_save` from `block_dump`, so that `block_dump` stays 0. A hibernation asked through
`/sys/power/state` while another task holds `tuxonice_in_use` runs its cycle without having
started. The pre- and post-hibernate commands run only for a store whose flags give
`SYSFS_HIBERNATE` alone, which `/sys/power/state` never does.

The caller's work itself, the message printing, `toi_print_modules`, the module debug counts,
`toi_attempt_to_parse_resume_device`, the modules' own `initialise` and `cleanup`, the
`header_requested` and `header_used` counts that initialising resets, and the rest of
`snapshot_open` and `snapshot_release` are left out.
-/

namespace TuxOnIceFastboot.Highlevel

open TuxOnIceFastboot.Lib

/-! ### The callers -/

/-- The flags of a `struct toi_sysfs_data`: `SYSFS_NEEDS_SM_FOR_READ` and the others. -/
def sysfsNeedsSmForRead : Nat := 1
def sysfsNeedsSmForWrite : Nat := 2
def sysfsHibernate : Nat := 4
def sysfsResume : Nat := 8
def sysfsHibernateOrResume : Nat := sysfsHibernate ||| sysfsResume
def sysfsHibernating : Nat := sysfsHibernate ||| sysfsNeedsSmForWrite
def sysfsResuming : Nat := sysfsResume ||| sysfsNeedsSmForWrite

/-- Who starts and finishes: `toi_attr_store` and `toi_attr_show` on an entry with `flags`,
`_toi_try_resume` at boot, `_toi_try_hibernate` from `/sys/power/state`, and a user of
`/dev/snapshot`, which opens the device and later releases it. -/
inductive Caller
  | attrStore (flags : Nat)
  | attrShow (flags : Nat)
  | tryResume
  | tryHibernate
  | snapshotDevice
  deriving DecidableEq, Repr

/-- The `hibernate_or_resume` each caller gives `toi_start_anything` and
`toi_finish_anything`. -/
def Caller.hibernateOrResume : Caller → Nat
  | .attrStore flags => flags &&& sysfsHibernateOrResume
  | .tryResume => sysfsResuming
  | .tryHibernate => sysfsHibernating
  | .attrShow _ | .snapshotDevice => 0

/-- `mm_segment_t`: the address limit `set_fs` gives a task. -/
inductive MmSegment
  | userDs
  | kernelDs
  deriving DecidableEq, Repr

/-- The fields of a `struct toi_module_ops` that starting and finishing read and write: the
kernel module that registered it (`none` when it is built in), `enabled`, `early`, whether it
has an `initialise` operation, and `initialised`. -/
structure ToiModuleOps where
  module : Option Nat
  enabled : Bool
  early : Bool
  initialise : Bool
  initialised : Bool
  deriving DecidableEq, Repr

/-- The settings and the machine: `pre_hibernate_command`, `post_hibernate_command`, `NR_CPUS`
and `cpu_online_map`. -/
structure Config where
  preHibernateCommand : String
  postHibernateCommand : String
  nrCpus : Nat
  cpuOnlineMap : List Nat
  deriving DecidableEq, Repr

/-- `CPU_MASK_ALL`. -/
def Config.cpuMaskAll (cfg : Config) : List Nat := List.range cfg.nrCpus

/-- `first_cpu(cpu_online_map)`: the lowest online CPU, `NR_CPUS` when none is. -/
def Config.firstCpu (cfg : Config) : Nat := cfg.cpuOnlineMap.min?.getD cfg.nrCpus

/-- What the rest of the kernel answers a step: the pre-hibernate command's status, whether
`try_module_get` succeeds on each kernel module, what the `initialise` of each TuxOnIce module
returns (by its place in `toi_modules`), and what `snapshot_open` finds once it has the device
(`-ENOSYS` for a read-write open, `-ENOMEM`, a notifier's error, or `0`). -/
structure Replies where
  preHibernate : Int
  moduleLive : Nat → Bool
  initialise : Nat → Int
  snapshotOpen : Int

/-- Where a task is. -/
inductive AnyPc
  /-- At the caller's first line. -/
  | entry
  /-- In `toi_start_anything`, at `mutex_lock(&tuxonice_in_use)`. -/
  | lockInUse
  /-- In `toi_start_anything`, at `mutex_lock(&pm_mutex)`. -/
  | lockPm
  /-- Doing the caller's work: after `toi_start_anything` returned 0 (`started`), or without
  it. -/
  | work (started : Bool)
  /-- `/dev/snapshot` open. -/
  | opened
  /-- Returned after its work. -/
  | returned
  /-- Returned an error without its work: `-EBUSY` from `toi_start_anything`, or the error of
  `snapshot_open`. -/
  | failed
  deriving DecidableEq, Repr

/-- A task: its caller, where it is, and what starting and finishing change of `current`, its
address limit and the CPUs it may run on. -/
structure Task where
  caller : Caller
  pc : AnyPc
  fs : MmSegment
  cpusAllowed : List Nat
  deriving DecidableEq, Repr

/-- What the tasks share: `tuxonice_in_use` and `pm_mutex` (locked or not),
`snapshot_device_available`, `block_dump` and `block_dump_save`, `oldfs`, `toi_modules`, the
reference count of each kernel module, the programs launched so far, and the tasks. -/
structure AnyState where
  tuxoniceInUse : Bool
  pmMutex : Bool
  snapshotDeviceAvailable : Int
  blockDump : Int
  blockDumpSave : Int
  oldfs : MmSegment
  toiModules : List ToiModuleOps
  moduleRefs : Nat → Nat
  launched : List String
  tasks : List Task

/-! ### The modules (`tuxonice_modules.c`) -/

/-- `try_module_get(module)`: a reference on a loaded module that is live; a built-in module
always succeeds. -/
def tryModuleGet (live : Nat → Bool) (refs : Nat → Nat) : Option Nat → Option (Nat → Nat)
  | none => some refs
  | some k => if live k then some (Function.update refs k (refs k + 1)) else none

/-- `module_put(module)`. -/
def modulePut (refs : Nat → Nat) : Option Nat → Nat → Nat
  | none => refs
  | some k => Function.update refs k (refs k - 1)

/-- `toi_put_modules()`. -/
def toiPutModules (mods : List ToiModuleOps) (refs : Nat → Nat) : Nat → Nat :=
  mods.foldl (fun refs this => modulePut refs this.module) refs

/-- The loop of `toi_get_modules()` from the module `this` on, those before it (`got`)
referenced: where `try_module_get` fails, the inner loop puts each module before `this` and the
result is `-EINVAL`. -/
def getModulesLoop (live : Nat → Bool) (got : List ToiModuleOps) :
    List ToiModuleOps → (Nat → Nat) → Int × (Nat → Nat)
  | [], refs => (0, refs)
  | this :: rest, refs =>
    match tryModuleGet live refs this.module with
    | some refs => getModulesLoop live (got ++ [this]) rest refs
    | none => (-EINVAL, toiPutModules got refs)

/-- `toi_get_modules()`. -/
def toiGetModules (live : Nat → Bool) (mods : List ToiModuleOps) (refs : Nat → Nat) :
    Int × (Nat → Nat) :=
  getModulesLoop live [] mods refs

/-- `toi_cleanup_modules(finishing_cycle)`: every enabled and initialised module is cleaned
up. -/
def toiCleanupModules (mods : List ToiModuleOps) : List ToiModuleOps :=
  mods.map fun this =>
    if !this.enabled || !this.initialised then this else { this with initialised := false }

/-- The loop of `toi_initialise_modules(starting_cycle, early)` from the module `this` on,
those before it (`done`) visited: an `initialise` that fails cleans up every module. -/
def initialiseLoop (initialise : Nat → Int) (early : Bool) (done : List ToiModuleOps) :
    List ToiModuleOps → Int × List ToiModuleOps
  | [] => (0, done)
  | this :: rest =>
    if !this.enabled || this.early != early || !this.initialise then
      initialiseLoop initialise early (done ++ [this]) rest
    else
      let result := initialise done.length
      if result ≠ 0 then (result, toiCleanupModules (done ++ this :: rest))
      else initialiseLoop initialise early (done ++ [{ this with initialised := true }]) rest

/-- `toi_initialise_modules(starting_cycle, early)`. -/
def toiInitialiseModules (initialise : Nat → Int) (early : Bool) (mods : List ToiModuleOps) :
    Int × List ToiModuleOps :=
  initialiseLoop initialise early [] mods

/-- A module apart from whether it is initialised. -/
def ToiModuleOps.cleared (m : ToiModuleOps) : ToiModuleOps := { m with initialised := false }

/-- The references a full `toi_get_modules` takes on kernel module `k`. -/
def owned (mods : List ToiModuleOps) (k : Nat) : Nat := mods.countP fun m => m.module = some k

section Modules

variable {mods : List ToiModuleOps}

theorem owned_cons (m : ToiModuleOps) (mods : List ToiModuleOps) (k : Nat) :
    owned (m :: mods) k = owned mods k + if m.module = some k then 1 else 0 := by
  simp [owned, List.countP_cons]

theorem owned_append (a b : List ToiModuleOps) (k : Nat) :
    owned (a ++ b) k = owned a k + owned b k :=
  List.countP_append

theorem owned_eq_of_map_cleared {mods' : List ToiModuleOps}
    (h : mods'.map ToiModuleOps.cleared = mods.map ToiModuleOps.cleared) (k : Nat) :
    owned mods' k = owned mods k := by
  have hc : ∀ l : List ToiModuleOps,
      owned l k = (l.map ToiModuleOps.cleared).countP fun m => m.module = some k := by
    intro l
    rw [owned, List.countP_map]
    rfl
  rw [hc, hc mods, h]

theorem tryModuleGet_apply {live : Nat → Bool} {refs refs' : Nat → Nat} {m : Option Nat}
    (h : tryModuleGet live refs m = some refs') (k : Nat) :
    refs' k = refs k + if m = some k then 1 else 0 := by
  cases m with
  | none =>
    cases h
    simp
  | some j =>
    simp only [tryModuleGet] at h
    split at h
    · cases h
      by_cases hj : j = k
      · subst hj
        simp
      · simp [Ne.symm hj, hj]
    · cases h

theorem modulePut_apply (refs : Nat → Nat) (m : Option Nat) (k : Nat) :
    modulePut refs m k = refs k - if m = some k then 1 else 0 := by
  cases m with
  | none => simp [modulePut]
  | some j =>
    by_cases hj : j = k
    · subst hj
      simp [modulePut]
    · simp [modulePut, Ne.symm hj, hj]

theorem toiPutModules_apply (mods : List ToiModuleOps) (refs : Nat → Nat) (k : Nat) :
    toiPutModules mods refs k = refs k - owned mods k := by
  induction mods generalizing refs with
  | nil => simp [toiPutModules, owned]
  | cons m ms ih =>
    rw [toiPutModules, List.foldl_cons, ← toiPutModules, ih, modulePut_apply, owned_cons]
    omega

theorem getModulesLoop_cases (live : Nat → Bool) :
    ∀ (rest got : List ToiModuleOps) (refs base : Nat → Nat),
      (∀ k, refs k = base k + owned got k) →
      getModulesLoop live got rest refs = (0, fun k => base k + owned (got ++ rest) k) ∨
        getModulesLoop live got rest refs = (-EINVAL, base)
  | [], got, refs, base, h => by
    left
    rw [getModulesLoop, List.append_nil]
    congr 1
    funext k
    exact h k
  | this :: rest, got, refs, base, h => by
    rw [getModulesLoop]
    cases hget : tryModuleGet live refs this.module with
    | none =>
      -- the inner loop puts back the references on the modules before `this`
      dsimp only
      right
      congr 1
      funext k
      rw [toiPutModules_apply, h]
      omega
    | some refs' =>
      have hgot : ∀ k, refs' k = base k + owned (got ++ [this]) k := by
        intro k
        rw [tryModuleGet_apply hget, h, owned_append, owned_cons]
        simp [owned]
        omega
      simpa using getModulesLoop_cases live rest (got ++ [this]) refs' base hgot

theorem toiGetModules_cases (live : Nat → Bool) (mods : List ToiModuleOps) (refs : Nat → Nat) :
    toiGetModules live mods refs = (0, fun k => refs k + owned mods k) ∨
      toiGetModules live mods refs = (-EINVAL, refs) := by
  simpa [toiGetModules, owned] using getModulesLoop_cases live mods [] refs refs (by simp [owned])

theorem toiGetModules_snd_of_ok {live : Nat → Bool} {refs : Nat → Nat}
    (h : (toiGetModules live mods refs).1 = 0) (k : Nat) :
    (toiGetModules live mods refs).2 k = refs k + owned mods k := by
  rcases toiGetModules_cases live mods refs with hg | hg
  · rw [hg]
  · rw [hg] at h
    simp [EINVAL] at h

theorem map_cleared_toiCleanupModules (mods : List ToiModuleOps) :
    (toiCleanupModules mods).map ToiModuleOps.cleared = mods.map ToiModuleOps.cleared := by
  simp only [toiCleanupModules, List.map_map]
  congr 1
  funext m
  simp only [Function.comp_apply]
  split <;> rfl

theorem toiCleanupModules_uninitialised
    (hen : ∀ m ∈ mods, m.initialised = true → m.enabled = true) :
    ∀ m ∈ toiCleanupModules mods, m.initialised = false := by
  intro m hm
  obtain ⟨m', hm', rfl⟩ := List.mem_map.mp hm
  by_cases hi : m'.initialised = true
  · simp [hi, hen m' hm' hi]
  · simp [hi]

theorem initialiseLoop_cases (initialise : Nat → Int) (early : Bool) :
    ∀ (rest done : List ToiModuleOps),
      (∀ m ∈ done ++ rest, m.initialised = true → m.enabled = true) →
      (initialiseLoop initialise early done rest).2.map ToiModuleOps.cleared =
          (done ++ rest).map ToiModuleOps.cleared ∧
        (∀ m ∈ (initialiseLoop initialise early done rest).2,
          m.initialised = true → m.enabled = true) ∧
        ((initialiseLoop initialise early done rest).1 ≠ 0 →
          ∀ m ∈ (initialiseLoop initialise early done rest).2, m.initialised = false)
  | [], done, hen => by
    simp only [initialiseLoop, List.append_nil, ne_eq, not_true_eq_false, false_implies,
      and_true, true_and]
    simpa using hen
  | this :: rest, done, hen => by
    rw [initialiseLoop]
    split
    · -- skipped: disabled, of the other pass, or without `initialise`
      simpa using initialiseLoop_cases initialise early rest (done ++ [this]) (by simpa using hen)
    · next hskip =>
      have hthis : this.enabled = true := by
        simp only [Bool.or_eq_true, Bool.not_eq_true', bne_iff_ne, ne_eq] at hskip
        cases h : this.enabled <;> simp_all
      dsimp only
      split
      · -- the cleanup after a failed `initialise`
        refine ⟨map_cleared_toiCleanupModules _, ?_, fun _ => toiCleanupModules_uninitialised hen⟩
        intro m hm hi
        simp [toiCleanupModules_uninitialised hen m hm] at hi
      · have hen' : ∀ m ∈ (done ++ [{ this with initialised := true }]) ++ rest,
            m.initialised = true → m.enabled = true := by
          intro m hm hi
          simp only [List.append_assoc, List.singleton_append, List.mem_append,
            List.mem_cons] at hm
          rcases hm with hm | rfl | hm
          · exact hen m (List.mem_append_left _ hm) hi
          · exact hthis
          · exact hen m (List.mem_append_right _ (List.mem_cons_of_mem _ hm)) hi
        obtain ⟨hmap, hen'', hfail⟩ :=
          initialiseLoop_cases initialise early rest (done ++ [{ this with initialised := true }])
            hen'
        refine ⟨?_, hen'', hfail⟩
        rw [hmap]
        simp [ToiModuleOps.cleared]

end Modules

/-! ### Starting and finishing -/

section Code

variable (cfg : Config)

/-- `toi_start_anything`'s error path from `snapshotdevice_unavailable:` on. -/
def snapshotdeviceUnavailable (h : Nat) (s : AnyState) (task : Task) : AnyState × Task :=
  let s := if h ≠ 0 then { s with pmMutex := false } else s
  ({ s with tuxoniceInUse := false }, { task with fs := s.oldfs, pc := .failed })

/-- From `prehibernate_err:` on. -/
def prehibernateErr (h : Nat) (s : AnyState) (task : Task) : AnyState × Task :=
  let s := if h ≠ 0 then { s with snapshotDeviceAvailable := s.snapshotDeviceAvailable + 1 }
    else s
  snapshotdeviceUnavailable h s task

/-- From `early_init_err:` on: `block_dump_save` is set from `block_dump`, not `block_dump`
from it. -/
def earlyInitErr (h : Nat) (s : AnyState) (task : Task) : AnyState × Task :=
  if h ≠ 0 then
    prehibernateErr h { s with blockDumpSave := s.blockDump }
      { task with cpusAllowed := cfg.cpuMaskAll }
  else prehibernateErr h s task

/-- `block_dump_save = block_dump; block_dump = 0;` and the task pinned on the first online
CPU, when hibernating or resuming. -/
def saveBlockDump (h : Nat) (s : AnyState) (task : Task) : AnyState × Task :=
  if h ≠ 0 then
    ({ s with blockDumpSave := s.blockDump, blockDump := 0 },
      { task with cpusAllowed := [cfg.firstCpu] })
  else (s, task)

/-- `toi_start_anything` from `toi_initialise_modules_early` on: the early modules, then the
late ones, initialised; a failure of the late ones cleans up every module once more. -/
def startInit (r : Replies) (h : Nat) (s : AnyState) (task : Task) : AnyState × Task :=
  let early := toiInitialiseModules r.initialise true s.toiModules
  let s := { s with toiModules := early.2 }
  if early.1 ≠ 0 then earlyInitErr cfg h s task
  else
    let late := toiInitialiseModules r.initialise false s.toiModules
    let s := { s with toiModules := late.2 }
    if late.1 = 0 then (s, { task with pc := .work true })
    else earlyInitErr cfg h { s with toiModules := toiCleanupModules s.toiModules } task

/-- `toi_start_anything` from `toi_get_modules` on. -/
def startModules (r : Replies) (h : Nat) (s : AnyState) (task : Task) : AnyState × Task :=
  let got := toiGetModules r.moduleLive s.toiModules s.moduleRefs
  let s := { s with moduleRefs := got.2 }
  -- "TuxOnIce: Get modules failed!"
  if got.1 ≠ 0 then prehibernateErr h s task
  else
    let st := saveBlockDump cfg h s task
    startInit cfg r h st.1 st.2

/-- `toi_start_anything(hibernate_or_resume)` from the pre-hibernate command on, with
`tuxonice_in_use` held and, when hibernating or resuming, `pm_mutex` and the device. -/
def startRest (r : Replies) (h : Nat) (s : AnyState) (task : Task) : AnyState × Task :=
  let pre := h == sysfsHibernate && !cfg.preHibernateCommand.isEmpty
  let s := if pre then { s with launched := s.launched ++ [cfg.preHibernateCommand] } else s
  -- "Pre-hibernate command '%s' returned %d. Aborting."
  if pre && r.preHibernate != 0 then prehibernateErr h s task
  else startModules cfg r h s task

/-- `toi_finish_anything(hibernate_or_resume)`. -/
def toiFinishAnything (h : Nat) (s : AnyState) (task : Task) : AnyState × Task :=
  let s := { s with
    toiModules := toiCleanupModules s.toiModules
    moduleRefs := toiPutModules s.toiModules s.moduleRefs }
  let st :=
    if h ≠ 0 then
      let s := { s with blockDump := s.blockDumpSave }
      let s := if h == sysfsHibernate && !cfg.postHibernateCommand.isEmpty then
          { s with launched := s.launched ++ [cfg.postHibernateCommand] }
        else s
      ({ s with snapshotDeviceAvailable := s.snapshotDeviceAvailable + 1, pmMutex := false },
        { task with cpusAllowed := cfg.cpuMaskAll })
    else (s, task)
  ({ st.1 with tuxoniceInUse := false }, { st.2 with fs := st.1.oldfs })

/-- `snapshot_open`, under `pm_mutex`: the device if it is available, given back when a later
check fails. -/
def snapshotOpen (r : Replies) (s : AnyState) (task : Task) : AnyState × Task :=
  if s.snapshotDeviceAvailable = 0 then (s, { task with pc := .failed })
  else
    let s := { s with snapshotDeviceAvailable := s.snapshotDeviceAvailable - 1 }
    if r.snapshotOpen ≠ 0 then
      ({ s with snapshotDeviceAvailable := s.snapshotDeviceAvailable + 1 },
        { task with pc := .failed })
    else (s, { task with pc := .opened })

/-- `snapshot_release`, under `pm_mutex`. -/
def snapshotRelease (s : AnyState) (task : Task) : AnyState × Task :=
  ({ s with snapshotDeviceAvailable := s.snapshotDeviceAvailable + 1 },
    { task with pc := .returned })

/-- One step of a task, `none` where it waits for a mutex that is held or has returned. -/
def taskStep (r : Replies) (s : AnyState) (task : Task) : Option (AnyState × Task) :=
  let h := task.caller.hibernateOrResume
  match task.pc with
  | .entry =>
    match task.caller with
    | .attrShow flags =>
      -- `full_prep`
      if flags &&& sysfsNeedsSmForRead ≠ 0 then some (s, { task with pc := .lockInUse })
      else some (s, { task with pc := .work false })
    | .tryHibernate =>
      -- started only when it came in through `/sys/power/state` (`sys_power_disk`), which it
      -- takes a free `tuxonice_in_use` to mean
      if s.tuxoniceInUse then some (s, { task with pc := .work false })
      else some (s, { task with pc := .lockInUse })
    | .snapshotDevice => if s.pmMutex then none else some (snapshotOpen r s task)
    | .attrStore _ | .tryResume => some (s, { task with pc := .lockInUse })
  | .lockInUse =>
    if s.tuxoniceInUse then none
    else
      let s := { s with tuxoniceInUse := true, oldfs := task.fs }
      let task := { task with fs := .kernelDs }
      if h ≠ 0 then some (s, { task with pc := .lockPm }) else some (startRest cfg r h s task)
  | .lockPm =>
    if s.pmMutex then none
    else
      let s := { s with pmMutex := true }
      -- `atomic_add_unless(&snapshot_device_available, -1, 0)`
      if s.snapshotDeviceAvailable = 0 then some (snapshotdeviceUnavailable h s task)
      else
        some (startRest cfg r h
          { s with snapshotDeviceAvailable := s.snapshotDeviceAvailable - 1 } task)
  | .work started =>
    if started then
      let st := toiFinishAnything cfg h s task
      some (st.1, { st.2 with pc := .returned })
    else some (s, { task with pc := .returned })
  | .opened => if s.pmMutex then none else some (snapshotRelease s task)
  | .returned | .failed => none

/-- One step of the system: task `a.1` steps, the rest of the kernel answering `a.2`. -/
def anyStep (s : AnyState) (a : Nat × Replies) : Option AnyState :=
  match s.tasks[a.1]? with
  | none => none
  | some task =>
    (taskStep cfg a.2 s task).map fun st => { st.1 with tasks := s.tasks.set a.1 st.2 }

/-! ### What starting does -/

variable {cfg} {r : Replies} {h : Nat} {s : AnyState} {task : Task}

theorem snapshotdeviceUnavailable_eq : snapshotdeviceUnavailable h s task =
    ({ s with tuxoniceInUse := false, pmMutex := if h ≠ 0 then false else s.pmMutex },
      { task with fs := s.oldfs, pc := .failed }) := by
  by_cases hh : h = 0 <;> simp [snapshotdeviceUnavailable, hh]

theorem prehibernateErr_eq : prehibernateErr h s task =
    ({ s with
        tuxoniceInUse := false
        pmMutex := if h ≠ 0 then false else s.pmMutex
        snapshotDeviceAvailable := s.snapshotDeviceAvailable + if h ≠ 0 then 1 else 0 },
      { task with fs := s.oldfs, pc := .failed }) := by
  by_cases hh : h = 0 <;> simp [prehibernateErr, snapshotdeviceUnavailable, hh]

theorem earlyInitErr_eq : earlyInitErr cfg h s task =
    prehibernateErr h { s with blockDumpSave := if h ≠ 0 then s.blockDump else s.blockDumpSave }
      { task with cpusAllowed := if h ≠ 0 then cfg.cpuMaskAll else task.cpusAllowed } := by
  by_cases hh : h = 0 <;> simp [earlyInitErr, hh]

theorem saveBlockDump_eq : saveBlockDump cfg h s task =
    ({ s with
        blockDumpSave := if h ≠ 0 then s.blockDump else s.blockDumpSave
        blockDump := if h ≠ 0 then 0 else s.blockDump },
      { task with cpusAllowed := if h ≠ 0 then [cfg.firstCpu] else task.cpusAllowed }) := by
  by_cases hh : h = 0 <;> simp [saveBlockDump, hh]

@[simp] theorem saveBlockDump_toiModules :
    (saveBlockDump cfg h s task).1.toiModules = s.toiModules := by
  rw [saveBlockDump_eq]

theorem toiFinishAnything_eq : toiFinishAnything cfg h s task =
    ({ s with
        tuxoniceInUse := false
        pmMutex := if h ≠ 0 then false else s.pmMutex
        snapshotDeviceAvailable := s.snapshotDeviceAvailable + if h ≠ 0 then 1 else 0
        blockDump := if h ≠ 0 then s.blockDumpSave else s.blockDump
        toiModules := toiCleanupModules s.toiModules
        moduleRefs := toiPutModules s.toiModules s.moduleRefs
        launched := if (h == sysfsHibernate && !cfg.postHibernateCommand.isEmpty) = true then
            s.launched ++ [cfg.postHibernateCommand]
          else s.launched },
      { task with
        fs := s.oldfs
        cpusAllowed := if h ≠ 0 then cfg.cpuMaskAll else task.cpusAllowed }) := by
  by_cases hh : h = 0
  · subst hh
    simp [toiFinishAnything, sysfsHibernate]
  · unfold toiFinishAnything
    dsimp only
    by_cases hp : (h == sysfsHibernate && !cfg.postHibernateCommand.isEmpty) = true
    · simp only [if_pos hh, if_pos hp]
    · simp only [if_pos hh, if_neg hp]

theorem startInit_cases (hmods : ∀ m ∈ s.toiModules, m.initialised = false) :
    (∃ M : List ToiModuleOps, M.map ToiModuleOps.cleared = s.toiModules.map ToiModuleOps.cleared ∧
      (∀ m ∈ M, m.initialised = true → m.enabled = true) ∧
      startInit cfg r h s task = ({ s with toiModules := M }, { task with pc := .work true })) ∨
    (∃ M : List ToiModuleOps, M.map ToiModuleOps.cleared = s.toiModules.map ToiModuleOps.cleared ∧
      (∀ m ∈ M, m.initialised = false) ∧
      startInit cfg r h s task = earlyInitErr cfg h { s with toiModules := M } task) := by
  have hen : ∀ m ∈ [] ++ s.toiModules, m.initialised = true → m.enabled = true := by
    intro m hm hi
    simp [hmods m (by simpa using hm)] at hi
  obtain ⟨hmap1, hen1, hfail1⟩ := initialiseLoop_cases r.initialise true s.toiModules [] hen
  rw [List.nil_append] at hmap1
  unfold startInit toiInitialiseModules
  dsimp only
  split
  · -- `toi_initialise_modules_early` failed
    next he => exact .inr ⟨_, hmap1, hfail1 he, rfl⟩
  · have hen1' : ∀ m ∈ [] ++ (initialiseLoop r.initialise true [] s.toiModules).2,
        m.initialised = true → m.enabled = true := by simpa using hen1
    obtain ⟨hmap2, hen2, hfail2⟩ :=
      initialiseLoop_cases r.initialise false (initialiseLoop r.initialise true [] s.toiModules).2
        [] hen1'
    rw [List.nil_append] at hmap2
    split
    · exact .inl ⟨_, hmap2.trans hmap1, hen2, rfl⟩
    · -- `toi_initialise_modules_late` failed, and the cleanup runs again
      refine .inr ⟨_, ?_, toiCleanupModules_uninitialised hen2, rfl⟩
      rw [map_cleared_toiCleanupModules, hmap2, hmap1]

theorem startModules_cases :
    startModules cfg r h s task = prehibernateErr h s task ∨
      startModules cfg r h s task =
        startInit cfg r h
          (saveBlockDump cfg h { s with moduleRefs := fun k => s.moduleRefs k + owned s.toiModules k }
            task).1
          (saveBlockDump cfg h { s with moduleRefs := fun k => s.moduleRefs k + owned s.toiModules k }
            task).2 := by
  unfold startModules
  rcases toiGetModules_cases r.moduleLive s.toiModules s.moduleRefs with hg | hg <;>
    simp only [hg] <;> simp [EINVAL]

theorem startRest_cases :
    ∃ L, (L = s.launched ∨ h = sysfsHibernate) ∧
      (startRest cfg r h s task = prehibernateErr h { s with launched := L } task ∨
        startRest cfg r h s task = startModules cfg r h { s with launched := L } task) := by
  unfold startRest
  dsimp only
  cases hpre : (h == sysfsHibernate && !cfg.preHibernateCommand.isEmpty) with
  | false =>
    refine ⟨s.launched, .inl rfl, .inr ?_⟩
    simp only [Bool.false_and, Bool.false_eq_true, ↓reduceIte]
  | true =>
    have hh : h = sysfsHibernate := by
      simpa using ((Bool.and_eq_true _ _).mp hpre).1
    refine ⟨s.launched ++ [cfg.preHibernateCommand], .inr hh, ?_⟩
    simp only [Bool.true_and, ↓reduceIte]
    split
    · exact .inl rfl
    · exact .inr rfl

/-- `toi_start_anything` returns 0 when the pre-hibernate command (run only to hibernate),
`toi_get_modules` and both passes of `toi_initialise_modules` succeed: its locks stay held, and
what changes is what succeeding does. -/
theorem startRest_of_ok (hpre : h = sysfsHibernate → r.preHibernate = 0)
    (hget : (toiGetModules r.moduleLive s.toiModules s.moduleRefs).1 = 0)
    (hearly : (toiInitialiseModules r.initialise true s.toiModules).1 = 0)
    (hlate : (toiInitialiseModules r.initialise false
      (toiInitialiseModules r.initialise true s.toiModules).2).1 = 0) :
    startRest cfg r h s task =
      ({ s with
          launched := if (h == sysfsHibernate && !cfg.preHibernateCommand.isEmpty) = true then
              s.launched ++ [cfg.preHibernateCommand]
            else s.launched
          moduleRefs := (toiGetModules r.moduleLive s.toiModules s.moduleRefs).2
          blockDumpSave := if h ≠ 0 then s.blockDump else s.blockDumpSave
          blockDump := if h ≠ 0 then 0 else s.blockDump
          toiModules := (toiInitialiseModules r.initialise false
            (toiInitialiseModules r.initialise true s.toiModules).2).2 },
        { task with
          cpusAllowed := if h ≠ 0 then [cfg.firstCpu] else task.cpusAllowed
          pc := .work true }) := by
  unfold startRest startModules startInit
  dsimp only
  cases hp : (h == sysfsHibernate && !cfg.preHibernateCommand.isEmpty) with
  | false =>
    simp only [Bool.false_and, Bool.false_eq_true, ↓reduceIte, hget, hearly, hlate, ne_eq,
      not_true_eq_false, saveBlockDump_eq]
  | true =>
    -- the pre-hibernate command ran and returned 0, so the branch to `prehibernate_err` is dead
    have hpre' : r.preHibernate = 0 := hpre (by simpa using ((Bool.and_eq_true _ _).mp hp).1)
    simp only [hpre', bne_self_eq_false, Bool.and_false, Bool.false_eq_true, ↓reduceIte, hget,
      hearly, hlate, ne_eq, not_true_eq_false, saveBlockDump_eq]

/-- `toi_start_anything` fails in `toi_initialise_modules_early` after the pre-hibernate
command (run only to hibernate) and `toi_get_modules` succeeded: it leaves through
`early_init_err` with the references it took, and `block_dump_save` set from the `block_dump`
it had cleared. -/
theorem startRest_of_earlyInit (hpre : h = sysfsHibernate → r.preHibernate = 0)
    (hget : (toiGetModules r.moduleLive s.toiModules s.moduleRefs).1 = 0)
    (hearly : (toiInitialiseModules r.initialise true s.toiModules).1 ≠ 0) :
    startRest cfg r h s task =
      prehibernateErr h
        { s with
          launched := if (h == sysfsHibernate && !cfg.preHibernateCommand.isEmpty) = true then
              s.launched ++ [cfg.preHibernateCommand]
            else s.launched
          moduleRefs := (toiGetModules r.moduleLive s.toiModules s.moduleRefs).2
          blockDumpSave := if h ≠ 0 then 0 else s.blockDumpSave
          blockDump := if h ≠ 0 then 0 else s.blockDump
          toiModules := (toiInitialiseModules r.initialise true s.toiModules).2 }
        { task with cpusAllowed := if h ≠ 0 then cfg.cpuMaskAll else task.cpusAllowed } := by
  unfold startRest startModules startInit
  dsimp only
  cases hp : (h == sysfsHibernate && !cfg.preHibernateCommand.isEmpty) with
  | false =>
    simp only [Bool.false_and, Bool.false_eq_true, ↓reduceIte, hget, hearly, ne_eq,
      not_true_eq_false, not_false_eq_true, saveBlockDump_eq, earlyInitErr_eq]
    by_cases hh : h = 0 <;> simp [hh]
  | true =>
    have hpre' : r.preHibernate = 0 := hpre (by simpa using ((Bool.and_eq_true _ _).mp hp).1)
    simp only [hpre', bne_self_eq_false, Bool.and_false, Bool.false_eq_true, ↓reduceIte, hget,
      hearly, ne_eq, not_true_eq_false, not_false_eq_true, saveBlockDump_eq, earlyInitErr_eq]
    by_cases hh : h = 0 <;> simp [hh]

theorem anyStep_of_taskStep {t : Nat} {s1 : AnyState} {task1 : Task}
    (ht : s.tasks[t]? = some task) (hstep : taskStep cfg r s task = some (s1, task1)) :
    anyStep cfg s (t, r) = some { s1 with tasks := s.tasks.set t task1 } := by
  simp [anyStep, ht, hstep]

end Code

/-! ### The accounting -/

/-- The task holds `tuxonice_in_use`. -/
def AnyPc.inUse : AnyPc → Nat
  | .lockPm | .work true => 1
  | _ => 0

/-- The task is in a session: `toi_start_anything` returned 0, `toi_finish_anything` is to
come. -/
def AnyPc.session : AnyPc → Nat
  | .work true => 1
  | _ => 0

theorem AnyPc.session_le_inUse (pc : AnyPc) : pc.session ≤ pc.inUse := by
  cases pc with
  | work started => cases started <;> decide
  | _ => decide

/-- A task still at the locks of `toi_start_anything` has no session. -/
theorem AnyPc.session_of_starting {pc : AnyPc} (h : pc = .lockInUse ∨ pc = .lockPm) :
    pc.session = 0 := by
  rcases h with rfl | rfl <;> rfl

/-- The task holds `pm_mutex`: a session that hibernates or resumes. -/
def Task.pm (task : Task) : Nat :=
  if task.caller.hibernateOrResume ≠ 0 then task.pc.session else 0

/-- The task holds the snapshot device: a session that hibernates or resumes, or the device
open. -/
def Task.unit (task : Task) : Nat := task.pm + if task.pc = .opened then 1 else 0

/-- The address limit of a task that came with `fs0`: the kernel's while it holds
`tuxonice_in_use`, with `fs0` kept in `oldfs`; `fs0` otherwise. -/
def FsOk (s : AnyState) (fs0 : MmSegment) (task : Task) : Prop :=
  if task.pc.inUse = 1 then task.fs = .kernelDs ∧ s.oldfs = fs0 else task.fs = fs0

/-- `block_dump` is `B`, or 0 with `B` saved while a session that hibernates or resumes holds
`pm_mutex`. -/
def BlockDumpOk (s : AnyState) (B : Int) : Prop :=
  if s.pmMutex then s.blockDump = 0 ∧ s.blockDumpSave = B else s.blockDump = B

/-- A start of the system: every task at its first line, both mutexes free, the device
available, no module initialised. -/
structure AnyInit (s : AnyState) : Prop where
  entry : ∀ task ∈ s.tasks, task.pc = .entry
  inUse : s.tuxoniceInUse = false
  pm : s.pmMutex = false
  available : s.snapshotDeviceAvailable = 1
  uninitialised : ∀ m ∈ s.toiModules, m.initialised = false

/-- What holds in every state the system reaches from `s0`: each mutex is held by the tasks
the code says, and by one at most; the device is available or held by one task; a task that
holds nothing has its own address limit; `block_dump` is its first value or 0; the modules are
initialised only in a session; each kernel module has a reference per session, and some more
that failed starts kept; only a hibernate store launches programs. -/
structure AnyInv (s0 s : AnyState) : Prop where
  callers : s.tasks.map Task.caller = s0.tasks.map Task.caller
  lockPm : ∀ task ∈ s.tasks, task.pc = .lockPm → task.caller.hibernateOrResume ≠ 0
  inUse : (s.tasks.map fun task => task.pc.inUse).sum = if s.tuxoniceInUse then 1 else 0
  pm : (s.tasks.map Task.pm).sum = if s.pmMutex then 1 else 0
  unit : s.snapshotDeviceAvailable + ((s.tasks.map Task.unit).sum : Int) = 1
  available : 0 ≤ s.snapshotDeviceAvailable
  fs : ∀ (t : Nat) (task0 task : Task), s0.tasks[t]? = some task0 → s.tasks[t]? = some task →
    FsOk s task0.fs task
  blockDump : ∃ B, (B = s0.blockDump ∨ B = 0) ∧ BlockDumpOk s B
  modules : s.toiModules.map ToiModuleOps.cleared = s0.toiModules.map ToiModuleOps.cleared
  enabled : ∀ m ∈ s.toiModules, m.initialised = true → m.enabled = true
  uninitialised : (s.tasks.map fun task => task.pc.session).sum = 0 →
    ∀ m ∈ s.toiModules, m.initialised = false
  refs : ∀ k, ∃ leaks, s.moduleRefs k = s0.moduleRefs k +
    ((s.tasks.map fun task => task.pc.session).sum + leaks) * owned s0.toiModules k
  launched : s.launched = s0.launched ∨
    ∃ task ∈ s0.tasks, task.caller.hibernateOrResume = sysfsHibernate

/-- What a step of task `t` from `task` to `task1` has to keep, the shared state going from `s`
to `s1`: what it takes and gives back balances, and what the other tasks rely on stays. -/
structure StepOk (s0 : AnyState) (t : Nat) (s : AnyState) (task : Task) (s1 : AnyState)
    (task1 : Task) : Prop where
  caller : task1.caller = task.caller
  lockPm : task1.pc = .lockPm → task.caller.hibernateOrResume ≠ 0
  inUse : (if s1.tuxoniceInUse then 1 else 0) + task.pc.inUse =
    (if s.tuxoniceInUse then 1 else 0) + task1.pc.inUse
  pm : (if s1.pmMutex then 1 else 0) + task.pm = (if s.pmMutex then 1 else 0) + task1.pm
  unit : s1.snapshotDeviceAvailable + (task1.unit : Int) =
    s.snapshotDeviceAvailable + task.unit
  available : 0 ≤ s1.snapshotDeviceAvailable
  fs : ∀ task0 : Task, s0.tasks[t]? = some task0 → FsOk s1 task0.fs task1
  oldfs : s1.oldfs = s.oldfs ∨ s.tuxoniceInUse = false
  blockDump : ∃ B, (B = s0.blockDump ∨ B = 0) ∧ BlockDumpOk s1 B
  modules : s1.toiModules.map ToiModuleOps.cleared = s.toiModules.map ToiModuleOps.cleared
  enabled : ∀ m ∈ s1.toiModules, m.initialised = true → m.enabled = true
  uninitialised : (s.tasks.map fun u => u.pc.session).sum = task.pc.session →
    task1.pc.session = 0 → ∀ m ∈ s1.toiModules, m.initialised = false
  refs : ∀ k, ∃ d, s1.moduleRefs k + task.pc.session * owned s0.toiModules k =
    s.moduleRefs k + (task1.pc.session + d) * owned s0.toiModules k
  launched : s1.launched = s.launched ∨ task.caller.hibernateOrResume = sysfsHibernate

section Invariant

variable {s0 s s1 : AnyState} {t : Nat} {task task1 : Task}

theorem AnyInit.sum_map_eq_zero (h0 : AnyInit s0) {f : Task → Nat}
    (hf : ∀ task : Task, task.pc = .entry → f task = 0) : (s0.tasks.map f).sum = 0 := by
  simp only [List.sum_eq_zero_iff, List.mem_map]
  rintro _ ⟨task, htask, rfl⟩
  exact hf task (h0.entry task htask)

theorem AnyInv.init (h0 : AnyInit s0) : AnyInv s0 s0 where
  callers := rfl
  lockPm task htask hpc := by simp [h0.entry task htask] at hpc
  inUse := by
    rw [h0.inUse, h0.sum_map_eq_zero fun task hpc => by simp [hpc, AnyPc.inUse]]
    rfl
  pm := by
    rw [h0.pm, h0.sum_map_eq_zero fun task hpc => by simp [hpc, Task.pm, AnyPc.session]]
    rfl
  unit := by
    rw [h0.available, h0.sum_map_eq_zero fun task hpc => by
      simp [hpc, Task.unit, Task.pm, AnyPc.session]]
    rfl
  available := by rw [h0.available]; decide
  fs t task0 task h0t ht := by
    rw [h0t] at ht
    cases ht
    simp [FsOk, h0.entry task0 (List.mem_of_getElem? h0t), AnyPc.inUse]
  blockDump := ⟨s0.blockDump, .inl rfl, by simp [BlockDumpOk, h0.pm]⟩
  modules := rfl
  enabled m hm hi := by simp [h0.uninitialised m hm] at hi
  uninitialised _ := h0.uninitialised
  refs k := ⟨0, by rw [h0.sum_map_eq_zero fun task hpc => by simp [hpc, AnyPc.session]]; simp⟩
  launched := .inl rfl

theorem AnyInv.set (hinv : AnyInv s0 s) (ht : s.tasks[t]? = some task)
    (hok : StepOk s0 t s task s1 task1) : AnyInv s0 { s1 with tasks := s.tasks.set t task1 } where
  callers := (map_set_of_eq ht hok.caller).trans hinv.callers
  lockPm := forall_mem_set hinv.lockPm fun hpc => hok.caller ▸ hok.lockPm hpc
  inUse := by
    have hsum := sum_map_set ht (fun u => u.pc.inUse) task1
    have h1 := hinv.inUse
    have h2 := hok.inUse
    simp only at hsum ⊢
    split_ifs at h1 h2 ⊢ <;> omega
  pm := by
    have hsum := sum_map_set ht Task.pm task1
    have h1 := hinv.pm
    have h2 := hok.pm
    simp only at hsum ⊢
    split_ifs at h1 h2 ⊢ <;> omega
  unit := by
    have hsum := sum_map_set ht Task.unit task1
    have h1 := hinv.unit
    have h2 := hok.unit
    simp only
    omega
  available := hok.available
  fs u task0 task' h0u hu := by
    by_cases hut : u = t
    · subst hut
      rw [List.getElem?_set_self (List.getElem?_eq_some_iff.mp ht).1] at hu
      cases hu
      exact hok.fs task0 h0u
    · rw [List.getElem?_set_ne (Ne.symm hut)] at hu
      have hfs := hinv.fs u task0 task' h0u hu
      unfold FsOk at hfs ⊢
      split
      · next hin =>
        rw [if_pos hin] at hfs
        refine ⟨hfs.1, ?_⟩
        -- only a task that took a free `tuxonice_in_use` moves `oldfs`
        rcases hok.oldfs with hold | hfree
        · exact hold.trans hfs.2
        · have hle := add_le_sum_map ht hu (Ne.symm hut) (fun u => u.pc.inUse)
          have hsum := hinv.inUse
          simp only [hfree, Bool.false_eq_true, ↓reduceIte] at hsum
          omega
      · next hin => rwa [if_neg hin] at hfs
  blockDump := hok.blockDump
  modules := hok.modules.trans hinv.modules
  enabled := hok.enabled
  uninitialised hzero := by
    have hsum := sum_map_set ht (fun u => u.pc.session) task1
    have hle := le_sum_map ht fun u => u.pc.session
    simp only at hsum hzero hle
    exact hok.uninitialised (by omega) (by omega)
  refs k := by
    obtain ⟨leaks, hleaks⟩ := hinv.refs k
    obtain ⟨d, hd⟩ := hok.refs k
    have hsum := sum_map_set ht (fun u => u.pc.session) task1
    simp only at hsum ⊢
    refine ⟨leaks + d, ?_⟩
    -- the sums are multiplied by the count, as atoms for `omega`
    have hmul := congrArg (· * owned s0.toiModules k) hsum
    simp only [Nat.add_mul] at hmul hleaks hd ⊢
    omega
  launched := by
    rcases hok.launched with hl | hh
    · rw [show ({ s1 with tasks := s.tasks.set t task1 } : AnyState).launched = s.launched from hl]
      exact hinv.launched
    · -- a hibernate store was there from the start
      right
      have hc : (s0.tasks.map Task.caller)[t]? = some task.caller := by
        rw [← hinv.callers, List.getElem?_map, ht]
        rfl
      obtain ⟨task0, h0t, hcaller⟩ :
          ∃ task0, s0.tasks[t]? = some task0 ∧ task0.caller = task.caller := by
        simpa [List.getElem?_map] using hc
      exact ⟨task0, List.mem_of_getElem? h0t, hcaller ▸ hh⟩

theorem AnyPc.session_eq_zero {pc : AnyPc} (h : pc.inUse = 0) : pc.session = 0 := by
  have := pc.session_le_inUse
  omega

theorem Task.pm_eq_zero {task : Task} (h : task.pc.inUse = 0) : task.pm = 0 := by
  simp [Task.pm, AnyPc.session_eq_zero h]

theorem AnyInv.inUse_of_holds (hinv : AnyInv s0 s) (ht : s.tasks[t]? = some task)
    (hin : task.pc.inUse = 1) : s.tuxoniceInUse = true := by
  have hle := le_sum_map ht fun u => u.pc.inUse
  have hsum := hinv.inUse
  cases h : s.tuxoniceInUse
  · rw [h] at hsum
    simp only [Bool.false_eq_true, ↓reduceIte] at hsum
    omega
  · rfl

theorem AnyInv.pm_of_holds (hinv : AnyInv s0 s) (ht : s.tasks[t]? = some task)
    (hpm : task.pm = 1) : s.pmMutex = true := by
  have hle := le_sum_map ht Task.pm
  have hsum := hinv.pm
  cases h : s.pmMutex
  · rw [h] at hsum
    simp only [Bool.false_eq_true, ↓reduceIte] at hsum
    omega
  · rfl

theorem AnyInv.sessions_eq_zero (hinv : AnyInv s0 s) (ht : s.tasks[t]? = some task)
    (hses : task.pc.session = 0) (hheld : task.pc.inUse = if s.tuxoniceInUse then 1 else 0) :
    (s.tasks.map fun u => u.pc.session).sum = 0 := by
  have hle := sum_map_add_le (fun u => AnyPc.session_le_inUse u.pc) ht
  have hsum := hinv.inUse
  rw [hsum, ← hheld, hses] at hle
  omega

theorem AnyInv.owned_le_refs (hinv : AnyInv s0 s) (ht : s.tasks[t]? = some task)
    (hses : task.pc.session = 1) (k : Nat) : owned s.toiModules k ≤ s.moduleRefs k := by
  obtain ⟨leaks, hleaks⟩ := hinv.refs k
  have hle := le_sum_map ht fun u => u.pc.session
  rw [owned_eq_of_map_cleared hinv.modules, hleaks]
  calc owned s0.toiModules k ≤ ((s.tasks.map fun u => u.pc.session).sum + leaks) *
        owned s0.toiModules k := Nat.le_mul_of_pos_left _ (by omega)
    _ ≤ _ := Nat.le_add_left _ _

end Invariant

/-! ### Each step keeps the invariant -/

section Steps

variable {cfg : Config} {r : Replies} {s0 s : AnyState} {t : Nat} {task : Task}

theorem stepOk_device (hinv : AnyInv s0 s) (ht : s.tasks[t]? = some task)
    (hpc : task.pc.inUse = 0) {pc : AnyPc} {a : Int} (hin : pc.inUse = 0) (hlock : pc ≠ .lockPm)
    (hbal : a + (if pc = .opened then 1 else 0) =
      s.snapshotDeviceAvailable + (if task.pc = .opened then 1 else 0))
    (ha : 0 ≤ a) :
    StepOk s0 t s task { s with snapshotDeviceAvailable := a } { task with pc := pc } where
  caller := rfl
  lockPm h := absurd h hlock
  inUse := by simp [hpc, hin]
  pm := by simp [Task.pm, AnyPc.session_eq_zero hpc, AnyPc.session_eq_zero hin]
  unit := by
    have hpm1 : ({ task with pc := pc } : Task).pm = 0 := Task.pm_eq_zero hin
    simp only [Task.unit, Task.pm_eq_zero hpc, hpm1]
    push_cast
    split_ifs at hbal ⊢ <;> omega
  available := ha
  fs task0 h0t := by
    have hfs := hinv.fs t task0 task h0t ht
    simp only [FsOk, hpc, hin] at hfs ⊢
    exact hfs
  oldfs := .inl rfl
  blockDump := by
    obtain ⟨B, hB, hok⟩ := hinv.blockDump
    exact ⟨B, hB, by simpa [BlockDumpOk] using hok⟩
  modules := rfl
  enabled := hinv.enabled
  uninitialised hsum _ := hinv.uninitialised (by rw [hsum, AnyPc.session_eq_zero hpc])
  refs k := ⟨0, by simp [AnyPc.session_eq_zero hpc, AnyPc.session_eq_zero hin]⟩
  launched := .inl rfl

theorem stepOk_takeInUse (hinv : AnyInv s0 s) (ht : s.tasks[t]? = some task)
    (hpc : task.pc = .lockInUse) (hfree : s.tuxoniceInUse = false)
    (hh : task.caller.hibernateOrResume ≠ 0) :
    StepOk s0 t s task { s with tuxoniceInUse := true, oldfs := task.fs }
      { task with fs := .kernelDs, pc := .lockPm } where
  caller := rfl
  lockPm _ := hh
  inUse := by simp [hpc, hfree, AnyPc.inUse]
  pm := by simp [Task.pm, hpc, AnyPc.session]
  unit := by simp [Task.unit, Task.pm, hpc, AnyPc.session]
  available := hinv.available
  fs task0 h0t := by
    have hfs := hinv.fs t task0 task h0t ht
    simp only [FsOk, hpc, AnyPc.inUse] at hfs ⊢
    simpa using hfs
  oldfs := .inr hfree
  blockDump := by
    obtain ⟨B, hB, hok⟩ := hinv.blockDump
    exact ⟨B, hB, by simpa [BlockDumpOk] using hok⟩
  modules := rfl
  enabled := hinv.enabled
  uninitialised hsum _ := hinv.uninitialised (by rw [hsum, hpc]; rfl)
  refs k := ⟨0, by simp [hpc, AnyPc.session]⟩
  launched := .inl rfl

theorem stepOk_unavailable (hinv : AnyInv s0 s) (ht : s.tasks[t]? = some task)
    (hpc : task.pc = .lockPm) (hpm : s.pmMutex = false) :
    StepOk s0 t s task
      (snapshotdeviceUnavailable task.caller.hibernateOrResume { s with pmMutex := true } task).1
      (snapshotdeviceUnavailable task.caller.hibernateOrResume { s with pmMutex := true } task).2 := by
  have hh := hinv.lockPm task (List.mem_of_getElem? ht) hpc
  have hin : s.tuxoniceInUse = true := hinv.inUse_of_holds ht (by simp [hpc, AnyPc.inUse])
  rw [snapshotdeviceUnavailable_eq]
  exact {
    caller := rfl
    lockPm := fun h => by cases h
    inUse := by simp [hpc, hin, AnyPc.inUse]
    pm := by simp [hh, hpm, Task.pm, hpc, AnyPc.session]
    unit := by simp [Task.unit, Task.pm, hpc, AnyPc.session]
    available := hinv.available
    fs := fun task0 h0t => by
      have hfs := hinv.fs t task0 task h0t ht
      simp only [FsOk, hpc, AnyPc.inUse] at hfs ⊢
      simpa using hfs.2
    oldfs := .inl rfl
    blockDump := by
      obtain ⟨B, hB, hok⟩ := hinv.blockDump
      exact ⟨B, hB, by simpa [BlockDumpOk, hh, hpm] using hok⟩
    modules := rfl
    enabled := hinv.enabled
    uninitialised := fun hsum _ => hinv.uninitialised (by rw [hsum, hpc]; rfl)
    refs := fun k => ⟨0, by simp [hpc, AnyPc.session]⟩
    launched := .inl rfl }

/-- A start that fails, from the state `sX` in which it jumps to `prehibernate_err`: the
locks and the device are given back, but not the references when it had taken them, nor
`block_dump` when it had cleared it. -/
theorem stepOk_startFailed (hinv : AnyInv s0 s) (hpc : task.pc = .lockInUse ∨ task.pc = .lockPm)
    (hheld : task.pc.inUse = if s.tuxoniceInUse then 1 else 0) {sX : AnyState} {taskX : Task}
    (hpm : if task.caller.hibernateOrResume ≠ 0 then s.pmMutex = false
      else sX.pmMutex = s.pmMutex)
    (havail : sX.snapshotDeviceAvailable + (if task.caller.hibernateOrResume ≠ 0 then 1 else 0) =
      s.snapshotDeviceAvailable)
    (hfs : ∀ task0 : Task, s0.tasks[t]? = some task0 → sX.oldfs = task0.fs)
    (hold : sX.oldfs = s.oldfs ∨ s.tuxoniceInUse = false) (hcaller : taskX.caller = task.caller)
    (hmods : sX.toiModules.map ToiModuleOps.cleared = s.toiModules.map ToiModuleOps.cleared)
    (huninit : ∀ m ∈ sX.toiModules, m.initialised = false)
    (hbd : (sX.blockDump = s.blockDump ∧ sX.blockDumpSave = s.blockDumpSave) ∨
      (task.caller.hibernateOrResume ≠ 0 ∧ sX.blockDump = 0))
    (hrefs : ∀ k, ∃ d, sX.moduleRefs k = s.moduleRefs k + d * owned s0.toiModules k)
    (hlaunched : sX.launched = s.launched ∨ task.caller.hibernateOrResume = sysfsHibernate) :
    StepOk s0 t s task (prehibernateErr task.caller.hibernateOrResume sX taskX).1
      (prehibernateErr task.caller.hibernateOrResume sX taskX).2 := by
  have hses : task.pc.session = 0 := AnyPc.session_of_starting hpc
  have hpm0 : task.pm = 0 := by simp [Task.pm, hses]
  have hunit0 : task.unit = 0 := by rcases hpc with h1 | h1 <;> simp [Task.unit, hpm0, h1]
  have hpm1 : ({ taskX with fs := sX.oldfs, pc := .failed } : Task).pm = 0 := Task.pm_eq_zero rfl
  have hunit1 : ({ taskX with fs := sX.oldfs, pc := .failed } : Task).unit = 0 := by
    simp [Task.unit, hpm1]
  rw [prehibernateErr_eq]
  dsimp only
  exact {
    caller := hcaller
    lockPm := fun h => by cases h
    inUse := by simp only [hheld]; simp [AnyPc.inUse]
    pm := by
      simp only [hpm0, hpm1]
      split_ifs at hpm ⊢ <;> simp_all
    unit := by
      simp only [hunit0, hunit1, Nat.cast_zero, add_zero]
      omega
    available := by
      have := hinv.available
      dsimp only
      split_ifs at havail ⊢ <;> omega
    fs := fun task0 h0t => by simp [FsOk, AnyPc.inUse, hfs task0 h0t]
    oldfs := hold
    blockDump := by
      obtain ⟨B, hB, hok⟩ := hinv.blockDump
      rcases hbd with ⟨hbd1, hbd2⟩ | ⟨hh, hbd⟩
      · refine ⟨B, hB, ?_⟩
        unfold BlockDumpOk at hok ⊢
        split_ifs at hpm hok ⊢ <;> simp_all
      · exact ⟨0, .inr rfl, by simp [BlockDumpOk, hh, hbd]⟩
    modules := hmods
    enabled := fun m hm hi => by simp [huninit m hm] at hi
    uninitialised := fun _ _ => huninit
    refs := fun k => by
      obtain ⟨d, hd⟩ := hrefs k
      refine ⟨d, ?_⟩
      rw [hses, hd]
      simp [AnyPc.session]
    launched := hlaunched }

theorem stepOk_startOk (hinv : AnyInv s0 s) (hpc : task.pc = .lockInUse ∨ task.pc = .lockPm)
    (hheld : task.pc.inUse = if s.tuxoniceInUse then 1 else 0) {sY : AnyState} {taskY : Task}
    (hin : sY.tuxoniceInUse = true)
    (hpm : if task.caller.hibernateOrResume ≠ 0 then sY.pmMutex = true ∧ s.pmMutex = false
      else sY.pmMutex = s.pmMutex)
    (havail : sY.snapshotDeviceAvailable + (if task.caller.hibernateOrResume ≠ 0 then 1 else 0) =
      s.snapshotDeviceAvailable)
    (ha : 0 ≤ sY.snapshotDeviceAvailable)
    (hfs : ∀ task0 : Task, s0.tasks[t]? = some task0 → sY.oldfs = task0.fs)
    (hold : sY.oldfs = s.oldfs ∨ s.tuxoniceInUse = false) (hcaller : taskY.caller = task.caller)
    (htaskfs : taskY.fs = .kernelDs)
    (hmods : sY.toiModules.map ToiModuleOps.cleared = s.toiModules.map ToiModuleOps.cleared)
    (hen : ∀ m ∈ sY.toiModules, m.initialised = true → m.enabled = true)
    (hbd : if task.caller.hibernateOrResume ≠ 0 then sY.blockDump = 0 ∧
        sY.blockDumpSave = s.blockDump
      else sY.blockDump = s.blockDump ∧ sY.blockDumpSave = s.blockDumpSave)
    (hrefs : ∀ k, sY.moduleRefs k = s.moduleRefs k + owned s0.toiModules k)
    (hlaunched : sY.launched = s.launched ∨ task.caller.hibernateOrResume = sysfsHibernate) :
    StepOk s0 t s task sY { taskY with pc := .work true } := by
  have hses : task.pc.session = 0 := AnyPc.session_of_starting hpc
  have hpm0 : task.pm = 0 := by simp [Task.pm, hses]
  have hunit0 : task.unit = 0 := by rcases hpc with h1 | h1 <;> simp [Task.unit, hpm0, h1]
  have hpm1 : ({ taskY with pc := .work true } : Task).pm =
      if task.caller.hibernateOrResume ≠ 0 then 1 else 0 := by
    simp [Task.pm, hcaller, AnyPc.session]
  have hunit1 : ({ taskY with pc := .work true } : Task).unit =
      if task.caller.hibernateOrResume ≠ 0 then 1 else 0 := by
    simp [Task.unit, hpm1]
  exact {
    caller := hcaller
    lockPm := fun h => by cases h
    inUse := by simp only [hheld, hin]; simp [AnyPc.inUse, Nat.add_comm]
    pm := by
      rw [hpm0, hpm1]
      split_ifs at hpm ⊢ <;> simp_all
    unit := by
      rw [hunit0, hunit1]
      split_ifs at havail ⊢ <;> push_cast <;> omega
    available := ha
    fs := fun task0 h0t => by simp [FsOk, AnyPc.inUse, hfs task0 h0t, htaskfs]
    oldfs := hold
    blockDump := by
      obtain ⟨B, hB, hok⟩ := hinv.blockDump
      refine ⟨B, hB, ?_⟩
      unfold BlockDumpOk at hok ⊢
      split_ifs at hpm hbd hok ⊢ <;> simp_all
    modules := hmods
    enabled := hen
    uninitialised := fun _ h => by simp [AnyPc.session] at h
    refs := fun k => ⟨0, by rw [hses, hrefs k]; simp [AnyPc.session]⟩
    launched := hlaunched }

/-- `toi_start_anything` after its locks, from the state its locks leave: `pm'`, `a'` and `o'`
are `pm_mutex`, `snapshot_device_available` and `oldfs` then. Whichever way it leaves, the step
keeps `StepOk`. -/
theorem stepOk_start (hinv : AnyInv s0 s) (ht : s.tasks[t]? = some task)
    (hpc : task.pc = .lockInUse ∨ task.pc = .lockPm)
    (hheld : task.pc.inUse = if s.tuxoniceInUse then 1 else 0) (pm' : Bool) (a' : Int)
    (o' : MmSegment)
    (hpm : if task.caller.hibernateOrResume ≠ 0 then pm' = true ∧ s.pmMutex = false
      else pm' = s.pmMutex)
    (havail : a' + (if task.caller.hibernateOrResume ≠ 0 then 1 else 0) =
      s.snapshotDeviceAvailable)
    (ha : 0 ≤ a') (hfs : ∀ task0 : Task, s0.tasks[t]? = some task0 → o' = task0.fs)
    (hold : o' = s.oldfs ∨ s.tuxoniceInUse = false) {sPre : AnyState} {taskPre : Task}
    (hsPre : sPre =
      { s with tuxoniceInUse := true, pmMutex := pm', snapshotDeviceAvailable := a', oldfs := o' })
    (htaskPre : taskPre = { task with fs := .kernelDs }) :
    StepOk s0 t s task (startRest cfg r task.caller.hibernateOrResume sPre taskPre).1
      (startRest cfg r task.caller.hibernateOrResume sPre taskPre).2 := by
  subst hsPre htaskPre
  have hses : task.pc.session = 0 := AnyPc.session_of_starting hpc
  have huninit : ∀ m ∈ s.toiModules, m.initialised = false :=
    hinv.uninitialised (hinv.sessions_eq_zero ht hses hheld)
  have hpmX : if task.caller.hibernateOrResume ≠ 0 then s.pmMutex = false
      else pm' = s.pmMutex := by
    split_ifs at hpm ⊢ <;> simp_all
  set h := task.caller.hibernateOrResume with hh
  set sPre : AnyState :=
    { s with tuxoniceInUse := true, pmMutex := pm', snapshotDeviceAvailable := a', oldfs := o' }
  set taskPre : Task := { task with fs := .kernelDs }
  -- a failure before the references are taken gives back all it took
  have hearly : ∀ L, (L = s.launched ∨ h = sysfsHibernate) →
      StepOk s0 t s task (prehibernateErr h { sPre with launched := L } taskPre).1
        (prehibernateErr h { sPre with launched := L } taskPre).2 := fun L hL =>
    stepOk_startFailed hinv hpc hheld hpmX havail hfs hold rfl rfl huninit (.inl ⟨rfl, rfl⟩)
      (fun k => ⟨0, by simp [sPre]⟩) hL
  obtain ⟨L, hL, hcase⟩ : ∃ L, (L = sPre.launched ∨ h = sysfsHibernate) ∧
      (startRest cfg r h sPre taskPre = prehibernateErr h { sPre with launched := L } taskPre ∨
        startRest cfg r h sPre taskPre = startModules cfg r h { sPre with launched := L } taskPre) :=
    startRest_cases
  rcases hcase with hpre | hmod
  · -- the pre-hibernate command failed
    rw [hpre]
    exact hearly L hL
  set sX : AnyState := { sPre with launched := L }
  rcases (startModules_cases : startModules cfg r h sX taskPre = prehibernateErr h sX taskPre ∨ _)
    with hget | hinit
  · -- `toi_get_modules` failed
    rw [hmod, hget]
    exact hearly L hL
  set sZ := saveBlockDump cfg h
    { sX with moduleRefs := fun k => sX.moduleRefs k + owned sX.toiModules k } taskPre
  have hrefsZ : ∀ k, sZ.1.moduleRefs k = s.moduleRefs k + owned s0.toiModules k := by
    intro k
    simp [sZ, sX, sPre, saveBlockDump_eq, owned_eq_of_map_cleared hinv.modules]
  rcases @startInit_cases cfg r h sZ.1 sZ.2 (by simpa [sZ, sX, sPre] using huninit) with
    ⟨M, hM, hen, heq⟩ | ⟨M, hM, hun, heq⟩
  · -- `toi_start_anything` returns 0
    rw [hmod, hinit, heq]
    refine stepOk_startOk hinv hpc hheld (by simp [sZ, sX, sPre, saveBlockDump_eq])
      (by simpa [sZ, sX, sPre, saveBlockDump_eq] using hpm)
      (by simpa [sZ, sX, sPre, saveBlockDump_eq] using havail)
      (by simpa [sZ, sX, sPre, saveBlockDump_eq] using ha)
      (by simpa [sZ, sX, sPre, saveBlockDump_eq] using hfs)
      (by simpa [sZ, sX, sPre, saveBlockDump_eq] using hold)
      (by simp [sZ, taskPre, saveBlockDump_eq]) (by simp [sZ, taskPre, saveBlockDump_eq])
      (by simpa [sZ, sX, sPre] using hM) hen ?_ hrefsZ (by simpa [sZ, sX, sPre, saveBlockDump_eq] using hL)
    by_cases h0 : h = 0 <;> simp [sZ, sX, sPre, saveBlockDump_eq, h0, ← hh]
  · -- an `initialise` failed: `early_init_err`
    rw [hmod, hinit, heq, earlyInitErr_eq]
    refine stepOk_startFailed hinv hpc hheld
      (by simpa [sZ, sX, sPre, saveBlockDump_eq] using hpmX)
      (by simpa [sZ, sX, sPre, saveBlockDump_eq] using havail)
      (by simpa [sZ, sX, sPre, saveBlockDump_eq] using hfs)
      (by simpa [sZ, sX, sPre, saveBlockDump_eq] using hold)
      (by simp [sZ, taskPre, saveBlockDump_eq]) (by simpa [sZ, sX, sPre] using hM) hun ?_
      (fun k => ⟨1, by simpa using hrefsZ k⟩) (by simpa [sZ, sX, sPre, saveBlockDump_eq] using hL)
    by_cases h0 : h = 0 <;> simp [sZ, sX, sPre, saveBlockDump_eq, h0, ← hh]

theorem stepOk_finish (hinv : AnyInv s0 s) (ht : s.tasks[t]? = some task)
    (hpc : task.pc = .work true) :
    StepOk s0 t s task (toiFinishAnything cfg task.caller.hibernateOrResume s task).1
      { (toiFinishAnything cfg task.caller.hibernateOrResume s task).2 with pc := .returned } := by
  have hin : s.tuxoniceInUse = true := hinv.inUse_of_holds ht (by simp [hpc, AnyPc.inUse])
  have hses : task.pc.session = 1 := by simp [hpc, AnyPc.session]
  have hfs0 : ∀ task0 : Task, s0.tasks[t]? = some task0 → s.oldfs = task0.fs := by
    intro task0 h0t
    have hfs := hinv.fs t task0 task h0t ht
    simp only [FsOk, hpc, AnyPc.inUse, if_true] at hfs
    exact hfs.2
  set h := task.caller.hibernateOrResume with hh
  have hpm0 : task.pm = if h ≠ 0 then 1 else 0 := by simp [Task.pm, hses, h]
  have hunit0 : task.unit = if h ≠ 0 then 1 else 0 := by simp [Task.unit, hpm0, hpc]
  have hpmheld : h ≠ 0 → s.pmMutex = true := fun hh0 =>
    hinv.pm_of_holds ht (by simp [hpm0, hh0])
  have hpm1 : ∀ c, ({ task with fs := s.oldfs, cpusAllowed := c, pc := .returned } : Task).pm = 0 :=
    fun _ => Task.pm_eq_zero rfl
  have hunit1 : ∀ c,
      ({ task with fs := s.oldfs, cpusAllowed := c, pc := .returned } : Task).unit = 0 := by
    simp [Task.unit, hpm1]
  rw [toiFinishAnything_eq]
  dsimp only
  exact {
    caller := rfl
    lockPm := fun h => by cases h
    inUse := by simp [hin, hpc, AnyPc.inUse]
    pm := by
      dsimp only
      rw [hpm0, hpm1]
      by_cases hh0 : h = 0
      · simp [hh0]
      · simp [hh0, hpmheld hh0]
    unit := by
      dsimp only
      rw [hunit0, hunit1]
      split_ifs <;> push_cast <;> omega
    available := by
      have := hinv.available
      dsimp only
      split_ifs <;> omega
    fs := fun task0 h0t => by simp [FsOk, AnyPc.inUse, hfs0 task0 h0t]
    oldfs := .inl rfl
    blockDump := by
      obtain ⟨B, hB, hok⟩ := hinv.blockDump
      by_cases hh0 : h = 0
      · exact ⟨B, hB, by simpa [BlockDumpOk, hh0] using hok⟩
      · -- `block_dump = block_dump_save`
        simp only [BlockDumpOk, hpmheld hh0, if_true] at hok
        exact ⟨B, hB, by simp [BlockDumpOk, hh0, hok.2]⟩
    modules := map_cleared_toiCleanupModules _
    enabled := fun m hm hi => by
      simp [toiCleanupModules_uninitialised hinv.enabled m hm] at hi
    uninitialised := fun _ _ => toiCleanupModules_uninitialised hinv.enabled
    refs := fun k => ⟨0, by
      have hle := hinv.owned_le_refs ht hses k
      rw [owned_eq_of_map_cleared hinv.modules] at hle
      dsimp only
      rw [toiPutModules_apply, hses, owned_eq_of_map_cleared hinv.modules]
      simp only [AnyPc.session]
      omega⟩
    launched := by
      by_cases hp : (h == sysfsHibernate && !cfg.postHibernateCommand.isEmpty) = true
      · right
        simpa using ((Bool.and_eq_true _ _).mp hp).1
      · left
        simp [hp] }

theorem stepOk_of_eq {x : AnyState × Task} {s1 : AnyState} {task1 : Task}
    (hok : StepOk s0 t s task x.1 x.2) (hx : x = (s1, task1)) : StepOk s0 t s task s1 task1 := by
  subst hx
  exact hok

theorem stepOk_taskStep (hinv : AnyInv s0 s) (ht : s.tasks[t]? = some task) {s1 : AnyState}
    {task1 : Task} (hstep : taskStep cfg r s task = some (s1, task1)) :
    StepOk s0 t s task s1 task1 := by
  have hav := hinv.available
  have hfs : ∀ task0 : Task, s0.tasks[t]? = some task0 → FsOk s task0.fs task :=
    fun task0 h0t => hinv.fs t task0 task h0t ht
  unfold taskStep at hstep
  cases hpc : task.pc with
  | entry =>
    have hin : task.pc.inUse = 0 := by simp [hpc, AnyPc.inUse]
    simp only [hpc] at hstep
    cases hc : task.caller with
    | attrShow flags =>
      simp only [hc] at hstep
      split at hstep <;> refine stepOk_of_eq ?_ (Option.some.inj hstep) <;> rw [← hc] <;>
        refine stepOk_device hinv ht hin ?_ ?_ ?_ hav <;> simp [hpc, AnyPc.inUse]
    | tryHibernate =>
      simp only [hc] at hstep
      split at hstep <;> refine stepOk_of_eq ?_ (Option.some.inj hstep) <;> rw [← hc] <;>
        refine stepOk_device hinv ht hin ?_ ?_ ?_ hav <;> simp [hpc, AnyPc.inUse]
    | snapshotDevice =>
      -- `snapshot_open`, under `pm_mutex`
      simp only [hc] at hstep
      split at hstep
      · cases hstep
      · refine stepOk_of_eq ?_ (Option.some.inj hstep)
        unfold snapshotOpen
        split_ifs with h0 herr
        · refine stepOk_device hinv ht hin ?_ ?_ ?_ hav <;> simp [hpc, AnyPc.inUse]
        · refine stepOk_device hinv ht hin ?_ ?_ ?_
            (by show 0 ≤ s.snapshotDeviceAvailable - 1 + 1; omega) <;> simp [hpc, AnyPc.inUse]
        · refine stepOk_device hinv ht hin ?_ ?_ ?_ (by omega) <;> simp [hpc, AnyPc.inUse]
    | attrStore flags =>
      simp only [hc] at hstep
      refine stepOk_of_eq ?_ (Option.some.inj hstep)
      rw [← hc]
      refine stepOk_device hinv ht hin ?_ ?_ ?_ hav <;> simp [hpc, AnyPc.inUse]
    | tryResume =>
      simp only [hc] at hstep
      refine stepOk_of_eq ?_ (Option.some.inj hstep)
      rw [← hc]
      refine stepOk_device hinv ht hin ?_ ?_ ?_ hav <;> simp [hpc, AnyPc.inUse]
  | lockInUse =>
    simp only [hpc] at hstep
    split at hstep
    · cases hstep
    · next hfree =>
      have hfree : s.tuxoniceInUse = false := by simpa using hfree
      split at hstep <;> refine stepOk_of_eq ?_ (Option.some.inj hstep)
      · -- to hibernate or resume, `pm_mutex` comes next
        next hh => exact stepOk_takeInUse hinv ht hpc hfree hh
      · next hh =>
        have hfs' : ∀ task0 : Task, s0.tasks[t]? = some task0 → task.fs = task0.fs := by
          intro task0 h0t
          simpa [FsOk, hpc, AnyPc.inUse] using hfs task0 h0t
        exact stepOk_start hinv ht (.inl hpc) (by simp [hpc, hfree, AnyPc.inUse]) s.pmMutex
          s.snapshotDeviceAvailable task.fs (by simp [hh]) (by simp [hh]) hav hfs' (.inr hfree)
          rfl (by rw [hpc])
  | lockPm =>
    have hh := hinv.lockPm task (List.mem_of_getElem? ht) hpc
    have hin : s.tuxoniceInUse = true := hinv.inUse_of_holds ht (by simp [hpc, AnyPc.inUse])
    have hfs' : ∀ task0 : Task, s0.tasks[t]? = some task0 →
        task.fs = .kernelDs ∧ s.oldfs = task0.fs := by
      intro task0 h0t
      simpa [FsOk, hpc, AnyPc.inUse] using hfs task0 h0t
    simp only [hpc] at hstep
    split at hstep
    · cases hstep
    · next hpm =>
      have hpm : s.pmMutex = false := by simpa using hpm
      split at hstep <;> refine stepOk_of_eq ?_ (Option.some.inj hstep)
      · -- `atomic_add_unless` finds no device
        exact stepOk_unavailable hinv ht hpc hpm
      · next hav0 =>
        -- the task keeps the kernel's address limit it took with `tuxonice_in_use`
        have htask : task = { task with fs := .kernelDs } := by
          cases hf : s0.tasks[t]? with
          | none =>
            have := hinv.callers
            have hlen := congrArg List.length this
            simp only [List.length_map] at hlen
            have := (List.getElem?_eq_some_iff.mp ht).1
            rw [List.getElem?_eq_none_iff] at hf
            omega
          | some task0 =>
            cases task
            simp_all
        exact stepOk_start hinv ht (.inr hpc) (by simp [hpc, hin, AnyPc.inUse]) true
          (s.snapshotDeviceAvailable - 1) s.oldfs (by simp [hh, hpm]) (by simp [hh]) (by omega)
          (fun task0 h0t => (hfs' task0 h0t).2) (.inl rfl) (by rw [hin]) htask
  | work started =>
    simp only [hpc] at hstep
    cases started with
    | true =>
      simp only [↓reduceIte] at hstep
      refine stepOk_of_eq ?_ (Option.some.inj hstep)
      exact stepOk_finish hinv ht hpc
    | false =>
      simp only [Bool.false_eq_true, ↓reduceIte] at hstep
      refine stepOk_of_eq ?_ (Option.some.inj hstep)
      refine stepOk_device hinv ht (by simp [hpc, AnyPc.inUse]) ?_ ?_ ?_ hav <;>
        simp [hpc, AnyPc.inUse]
  | opened =>
    -- `snapshot_release`, under `pm_mutex`
    simp only [hpc] at hstep
    split at hstep
    · cases hstep
    · refine stepOk_of_eq ?_ (Option.some.inj hstep)
      refine stepOk_device hinv ht (by simp [hpc, AnyPc.inUse]) ?_ ?_ ?_ (by omega) <;>
        simp [hpc, AnyPc.inUse]
  | returned => simp [hpc] at hstep
  | failed => simp [hpc] at hstep

/-- A step of the system keeps the invariant. -/
theorem AnyInv.step (hinv : AnyInv s0 s) {a : Nat × Replies} {s' : AnyState}
    (hstep : anyStep cfg s a = some s') : AnyInv s0 s' := by
  obtain ⟨t, r⟩ := a
  unfold anyStep at hstep
  cases ht : s.tasks[t]? with
  | none =>
    rw [ht] at hstep
    cases hstep
  | some task =>
    rw [ht] at hstep
    obtain ⟨⟨s1, task1⟩, hts, rfl⟩ := Option.map_eq_some_iff.mp hstep
    exact hinv.set ht (stepOk_taskStep hinv ht hts)

theorem anyInv_of_reachable (h0 : AnyInit s0) {s : AnyState}
    (hr : Reachable (anyStep cfg) s0 s) : AnyInv s0 s :=
  Reachable.invariant (AnyInv.init h0) (fun _ _ _ hinv hstep => hinv.step hstep) hr

end Steps

end TuxOnIceFastboot.Highlevel
