import TuxOnIceFastboot.Highlevel.Anything

/-!
# Starting and finishing under every interleaving

What `AnyInv` gives the callers of `toi_start_anything` and `toi_finish_anything`, over every
interleaving of their steps from a start of the system (`AnyInit`):

* no two tasks hold `tuxonice_in_use`, `pm_mutex` or the snapshot device together, and the
  device is available exactly when no task holds it (`start_anything_exclusive`);
* once `tuxonice_in_use` is free, the starts have given back `pm_mutex`, each task's address
  limit and the modules' initialisation, but `block_dump` may be left 0 and each kernel module
  may keep references (`idle_state_gives_back`). `start_failure_keeps_references` is the step
  that loses them: an `initialise` failing at `early_init_err`;
* a hibernation asked through `/sys/power/state` while a store holds `tuxonice_in_use` runs
  its cycle with `pm_mutex` free and `/dev/snapshot` open by a third task
  (`power_state_hibernate_races`);
* only a store whose flags give `SYSFS_HIBERNATE` alone launches the pre- and post-hibernate
  commands (`AnyInv.launched`).

The witnesses run a small system (`exampleStart`) with two modules, one of which registered
kernel module 0, and with `block_dump` set at boot.
-/

namespace TuxOnIceFastboot.Highlevel

open TuxOnIceFastboot.Lib

/-! ### A small system -/

/-- Both commands set, on two online CPUs. -/
def exampleConfig : Config := ⟨"pre", "post", 2, [0, 1]⟩

/-- A module of kernel module 0 with an early `initialise`, and a built-in one with a late
`initialise`. -/
def exampleModules : List ToiModuleOps :=
  [⟨some 0, true, true, true, false⟩, ⟨none, true, false, true, false⟩]

/-- The system at boot with the given callers: `block_dump` set, and no reference taken. -/
def exampleStart (callers : List Caller) : AnyState where
  tuxoniceInUse := false
  pmMutex := false
  snapshotDeviceAvailable := 1
  blockDump := 1
  blockDumpSave := 0
  oldfs := .userDs
  toiModules := exampleModules
  moduleRefs := fun _ => 0
  launched := []
  tasks := callers.map fun caller => ⟨caller, .entry, .userDs, [0, 1]⟩

/-- Every call succeeds. -/
def okReplies : Replies := ⟨0, fun _ => true, fun _ => 0, 0⟩

/-- The first `initialise` fails with `-ENOMEM`. -/
def earlyFailure : Replies := { okReplies with initialise := fun _ => -ENOMEM }

theorem exampleStart_init (callers : List Caller) : AnyInit (exampleStart callers) where
  entry := by simp [exampleStart]
  inUse := rfl
  pm := rfl
  available := rfl
  uninitialised := by simp [exampleStart, exampleModules]

/-! ### Exclusion -/

section Guarantees

variable {cfg : Config} {s0 s : AnyState}

/-- Over every interleaving, no two tasks hold `tuxonice_in_use`, `pm_mutex` or the snapshot
device together, and the device is available exactly when no task holds it: it is never lost or
duplicated. -/
theorem start_anything_exclusive (h0 : AnyInit s0) (hr : Reachable (anyStep cfg) s0 s)
    {t u : Nat} {task task' : Task} (htu : t ≠ u) (ht : s.tasks[t]? = some task)
    (hu : s.tasks[u]? = some task') :
    task.pc.inUse + task'.pc.inUse ≤ 1 ∧ task.pm + task'.pm ≤ 1 ∧ task.unit + task'.unit ≤ 1 ∧
      s.snapshotDeviceAvailable + ((s.tasks.map Task.unit).sum : Int) = 1 := by
  have hinv := anyInv_of_reachable h0 hr
  have hin := add_le_sum_map ht hu htu fun u => u.pc.inUse
  have hpm := add_le_sum_map ht hu htu Task.pm
  have hunit := add_le_sum_map ht hu htu Task.unit
  have hin1 := hinv.inUse
  have hpm1 := hinv.pm
  have hav := hinv.available
  have hunit1 := hinv.unit
  refine ⟨?_, ?_, by omega, hunit1⟩
  · split at hin1 <;> omega
  · split at hpm1 <;> omega

/-- A resume holds the device and both mutexes; the user of `/dev/snapshot` waits. -/
theorem start_anything_exclusive_resume :
    ∃ s, Reachable (anyStep exampleConfig) (exampleStart [.tryResume, .snapshotDevice]) s ∧
      ∃ task task', s.tasks[0]? = some task ∧ s.tasks[1]? = some task' ∧
        task.pc = .work true ∧ task'.pc = .entry ∧
        (task.pc.inUse + task'.pc.inUse ≤ 1 ∧ task.pm + task'.pm ≤ 1 ∧
          task.unit + task'.unit ≤ 1 ∧
          s.snapshotDeviceAvailable + ((s.tasks.map Task.unit).sum : Int) = 1) := by
  have hr : Reachable (anyStep exampleConfig) (exampleStart [.tryResume, .snapshotDevice]) _ :=
    ((Reachable.init.step (0, okReplies) rfl).step (0, okReplies) rfl).step (0, okReplies) rfl
  refine ⟨_, hr, _, _, rfl, rfl, rfl, rfl, ?_⟩
  exact start_anything_exclusive (exampleStart_init _) hr (show (0 : Nat) ≠ 1 by decide) rfl rfl

/-! ### What an idle system has given back -/

theorem Task.pm_le_session (task : Task) : task.pm ≤ task.pc.session := by
  unfold Task.pm
  split <;> omega

theorem AnyInv.inUse_eq_zero_of_free (hinv : AnyInv s0 s) (hfree : s.tuxoniceInUse = false)
    {t : Nat} {task : Task} (ht : s.tasks[t]? = some task) : task.pc.inUse = 0 := by
  have hle := le_sum_map ht fun u => u.pc.inUse
  have hsum := hinv.inUse
  simp only [hfree, Bool.false_eq_true, ↓reduceIte] at hsum
  omega

theorem AnyInv.sessions_eq_zero_of_free (hinv : AnyInv s0 s) (hfree : s.tuxoniceInUse = false) :
    (s.tasks.map fun u => u.pc.session).sum = 0 ∧ s.pmMutex = false := by
  have hses : (s.tasks.map fun u => u.pc.session).sum ≤ (s.tasks.map fun u => u.pc.inUse).sum :=
    List.sum_le_sum fun u _ => u.pc.session_le_inUse
  have hpm : (s.tasks.map Task.pm).sum ≤ (s.tasks.map fun u => u.pc.session).sum :=
    List.sum_le_sum fun u _ => u.pm_le_session
  have hin := hinv.inUse
  have hpm1 := hinv.pm
  simp only [hfree, Bool.false_eq_true, ↓reduceIte] at hin
  refine ⟨by omega, ?_⟩
  cases h : s.pmMutex
  · rfl
  · simp only [h, ↓reduceIte] at hpm1
    omega

/-- Once `tuxonice_in_use` is free, the starts have given back `pm_mutex`, each task's address
limit and the modules' initialisation; but `block_dump` is its value at boot or 0, and each
kernel module keeps some references per TuxOnIce module it registered, one for each failed
start that had taken them. -/
theorem idle_state_gives_back (h0 : AnyInit s0) (hr : Reachable (anyStep cfg) s0 s)
    (hfree : s.tuxoniceInUse = false) :
    s.pmMutex = false ∧
      (∀ (t : Nat) (task0 task : Task), s0.tasks[t]? = some task0 → s.tasks[t]? = some task →
        task.fs = task0.fs) ∧
      (∀ m ∈ s.toiModules, m.initialised = false) ∧
      (s.blockDump = s0.blockDump ∨ s.blockDump = 0) ∧
      ∀ k, ∃ leaks, s.moduleRefs k = s0.moduleRefs k + leaks * owned s0.toiModules k := by
  have hinv := anyInv_of_reachable h0 hr
  obtain ⟨hses, hpm⟩ := hinv.sessions_eq_zero_of_free hfree
  refine ⟨hpm, ?_, hinv.uninitialised hses, ?_, ?_⟩
  · intro t task0 task h0t ht
    have hfs := hinv.fs t task0 task h0t ht
    simpa [FsOk, hinv.inUse_eq_zero_of_free hfree ht] using hfs
  · -- with `pm_mutex` free, `block_dump` is not saved away
    obtain ⟨B, hB, hok⟩ := hinv.blockDump
    simp only [BlockDumpOk, hpm, Bool.false_eq_true, ↓reduceIte] at hok
    rwa [hok]
  · intro k
    obtain ⟨leaks, hleaks⟩ := hinv.refs k
    exact ⟨leaks, by rw [hleaks, hses, Nat.zero_add]⟩

/-- A resume whose early `initialise` fails leaves the system idle with `block_dump` 0, where it
was 1 at boot, and a reference kept on kernel module 0. -/
theorem idle_state_gives_back_resume :
    ∃ s, Reachable (anyStep exampleConfig) (exampleStart [.tryResume]) s ∧
      s.tuxoniceInUse = false ∧ s.blockDump = 0 ∧ s.moduleRefs 0 = 1 ∧
      (s.pmMutex = false ∧
        (∀ (t : Nat) (task0 task : Task), (exampleStart [.tryResume]).tasks[t]? = some task0 →
          s.tasks[t]? = some task → task.fs = task0.fs) ∧
        (∀ m ∈ s.toiModules, m.initialised = false) ∧
        (s.blockDump = (exampleStart [.tryResume]).blockDump ∨ s.blockDump = 0) ∧
        ∀ k, ∃ leaks, s.moduleRefs k = (exampleStart [.tryResume]).moduleRefs k +
          leaks * owned (exampleStart [.tryResume]).toiModules k) := by
  have hr : Reachable (anyStep exampleConfig) (exampleStart [.tryResume]) _ :=
    ((Reachable.init.step (0, okReplies) rfl).step (0, okReplies) rfl).step (0, earlyFailure) rfl
  exact ⟨_, hr, rfl, rfl, rfl, idle_state_gives_back (exampleStart_init _) hr rfl⟩

/-! ### The step that loses `block_dump` and keeps the references -/

/-- A start that hibernates or resumes and fails in `toi_initialise_modules_early`, after
`toi_get_modules` took its references: the step gives back both mutexes, the device and the
address limit, but keeps a reference on every module and leaves `block_dump` and
`block_dump_save` both 0, so that the `block_dump` of before the start is lost. -/
theorem start_failure_keeps_references {r : Replies} {t : Nat} {task : Task}
    (ht : s.tasks[t]? = some task) (hpc : task.pc = .lockPm) (hpm : s.pmMutex = false)
    (havail : s.snapshotDeviceAvailable ≠ 0) (hh : task.caller.hibernateOrResume ≠ 0)
    (hpre : task.caller.hibernateOrResume = sysfsHibernate → r.preHibernate = 0)
    (hget : (toiGetModules r.moduleLive s.toiModules s.moduleRefs).1 = 0)
    (hearly : (toiInitialiseModules r.initialise true s.toiModules).1 ≠ 0) :
    ∃ s', anyStep cfg s (t, r) = some s' ∧ s'.tuxoniceInUse = false ∧ s'.pmMutex = false ∧
      s'.snapshotDeviceAvailable = s.snapshotDeviceAvailable ∧ s'.blockDump = 0 ∧
      s'.blockDumpSave = 0 ∧ (∀ k, s'.moduleRefs k = s.moduleRefs k + owned s.toiModules k) ∧
      s'.tasks = s.tasks.set t
        { task with fs := s.oldfs, cpusAllowed := cfg.cpuMaskAll, pc := .failed } := by
  -- `pm_mutex` taken and the device decremented, then the rest of `toi_start_anything`
  set sLocked : AnyState :=
    { s with pmMutex := true, snapshotDeviceAvailable := s.snapshotDeviceAvailable - 1 }
  have hstep : taskStep cfg r s task =
      some (startRest cfg r task.caller.hibernateOrResume sLocked task) := by
    simp [taskStep, hpc, hpm, havail, sLocked]
  have hget' : (toiGetModules r.moduleLive sLocked.toiModules sLocked.moduleRefs).1 = 0 := hget
  rw [startRest_of_earlyInit hpre hget' hearly, prehibernateErr_eq] at hstep
  refine ⟨_, anyStep_of_taskStep ht hstep, ?_⟩
  simp [sLocked, hh, toiGetModules_snd_of_ok hget]

/-- The resume of boot at `mutex_lock(&pm_mutex)`, its early `initialise` failing. -/
theorem start_failure_keeps_references_resume :
    ∃ s, Reachable (anyStep exampleConfig) (exampleStart [.tryResume]) s ∧ s.blockDump = 1 ∧
      ∃ task, s.tasks[0]? = some task ∧ task.pc = .lockPm ∧
        ∃ s', anyStep exampleConfig s (0, earlyFailure) = some s' ∧ s'.tuxoniceInUse = false ∧
          s'.pmMutex = false ∧ s'.snapshotDeviceAvailable = s.snapshotDeviceAvailable ∧
          s'.blockDump = 0 ∧ s'.blockDumpSave = 0 ∧
          (∀ k, s'.moduleRefs k = s.moduleRefs k + owned s.toiModules k) ∧
          s'.tasks = s.tasks.set 0
            { task with fs := s.oldfs, cpusAllowed := exampleConfig.cpuMaskAll, pc := .failed } := by
  have hr : Reachable (anyStep exampleConfig) (exampleStart [.tryResume]) _ :=
    (Reachable.init.step (0, okReplies) rfl).step (0, okReplies) rfl
  refine ⟨_, hr, rfl, _, rfl, rfl, ?_⟩
  refine start_failure_keeps_references ?_ ?_ ?_ ?_ ?_ ?_ ?_ ?_
  · rfl
  all_goals decide

/-! ### `/sys/power/state` -/

/-- A hibernation asked through `/sys/power/state` while a store without
`SYSFS_HIBERNATE_OR_RESUME` holds `tuxonice_in_use` takes it to come from `do_hibernate`, and
runs its cycle without starting: with `pm_mutex` free and the device open by a user of
`/dev/snapshot`. This holds for every configuration and state of the modules in which the
store's start succeeds. -/
theorem power_state_hibernate_races (h0 : AnyInit s0) {flags : Nat}
    (hflags : flags &&& sysfsHibernateOrResume = 0) {r : Replies}
    (hget : (toiGetModules r.moduleLive s0.toiModules s0.moduleRefs).1 = 0)
    (hearly : (toiInitialiseModules r.initialise true s0.toiModules).1 = 0)
    (hlate : (toiInitialiseModules r.initialise false
      (toiInitialiseModules r.initialise true s0.toiModules).2).1 = 0)
    (hopen : r.snapshotOpen = 0)
    (hcallers : s0.tasks.map Task.caller = [.attrStore flags, .tryHibernate, .snapshotDevice]) :
    ∃ s, Reachable (anyStep cfg) s0 s ∧ s.tuxoniceInUse = true ∧ s.pmMutex = false ∧
      s.snapshotDeviceAvailable = 0 ∧ s.tasks.map Task.pc = [.work true, .work false, .opened] := by
  obtain ⟨task0, task1, task2, hts, hc0, hc1, hc2⟩ : ∃ task0 task1 task2,
      s0.tasks = [task0, task1, task2] ∧ task0.caller = .attrStore flags ∧
        task1.caller = .tryHibernate ∧ task2.caller = .snapshotDevice := by
    simp only [List.map_eq_cons_iff, List.map_eq_nil_iff] at hcallers
    obtain ⟨task0, _, hts, hc0, task1, _, rfl, hc1, task2, _, rfl, hc2, rfl⟩ := hcallers
    exact ⟨task0, task1, task2, hts, hc0, hc1, hc2⟩
  have hpc := h0.entry
  simp only [hts, List.mem_cons, List.not_mem_nil, or_false, forall_eq_or_imp, forall_eq] at hpc
  obtain ⟨hpc0, hpc1, hpc2⟩ := hpc
  -- the store takes `tuxonice_in_use` and starts, without `pm_mutex` or the device
  have hpre : (0 : Nat) = sysfsHibernate → r.preHibernate = 0 := by simp [sysfsHibernate]
  obtain ⟨s1, task0', hrun1, hin1, hpm1, hav1, hts1, hpc0'⟩ : ∃ s1 task0',
      [(0, r), (0, r)].foldlM (anyStep cfg) s0 = some s1 ∧ s1.tuxoniceInUse = true ∧
        s1.pmMutex = false ∧ s1.snapshotDeviceAvailable = 1 ∧ s1.tasks = [task0', task1, task2] ∧
        task0'.pc = .work true := by
    simp [anyStep, hts, taskStep, hpc0, hc0, h0.inUse, h0.pm, h0.available,
      Caller.hibernateOrResume, hflags]
    rw [startRest_of_ok hpre]
    · simp
    · exact hget
    · exact hearly
    · exact hlate
  -- the hibernation finds `tuxonice_in_use` held, and `/dev/snapshot` finds `pm_mutex` free
  obtain ⟨s2, hrun2, hin2, hpm2, hav2, hpcs⟩ : ∃ s2,
      [(1, r), (2, r)].foldlM (anyStep cfg) s1 = some s2 ∧ s2.tuxoniceInUse = true ∧
        s2.pmMutex = false ∧ s2.snapshotDeviceAvailable = 0 ∧
        s2.tasks.map Task.pc = [.work true, .work false, .opened] := by
    simp [anyStep, hts1, taskStep, hpc1, hc1, hin1, hpm1, hav1, snapshotOpen, hopen, hpc0', hpc2,
      hc2]
  exact ⟨s2, (Reachable.init.foldlM _ hrun1).foldlM _ hrun2, hin2, hpm2, hav2, hpcs⟩

/-- A store to `reboot`, whose flags are 0, `echo disk > /sys/power/state`, and a user of
`/dev/snapshot`. -/
theorem power_state_hibernate_races_reboot :
    ∃ s, Reachable (anyStep exampleConfig)
        (exampleStart [.attrStore 0, .tryHibernate, .snapshotDevice]) s ∧
      s.tuxoniceInUse = true ∧ s.pmMutex = false ∧ s.snapshotDeviceAvailable = 0 ∧
      s.tasks.map Task.pc = [.work true, .work false, .opened] :=
  power_state_hibernate_races (exampleStart_init _) (by decide) (r := okReplies) (by decide)
    (by decide) (by decide) rfl rfl

end Guarantees

end TuxOnIceFastboot.Highlevel
