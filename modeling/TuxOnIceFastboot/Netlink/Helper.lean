import TuxOnIceFastboot.Base

/-!
# The netlink helpers (`tuxonice_netlink.c`)

TuxOnIce talks to two userspace helpers, the user interface and the storage manager, each
through a `struct user_helper_data`: a netlink socket, the helper's `pid`, and a pool of spare
skbs (`emerg_skbs`, counted by `pool_level` up to `pool_limit`) for when `alloc_skb` fails.
`netlink_prepare` pushes the helper on `uhd_list`, the list `toi_user_rcv_skb` walks to find the
helper of a message's protocol.

A helper's pool is its number of skbs: the skbs on `emerg_skbs` are alike. The outcome of each
`alloc_skb`, of `netlink_kernel_create`, of the launch of the helper and of its contact while
`toi_netlink_setup` waits are parameters of the calls.

The bookkeeping does not keep its invariants. `toi_netlink_close_complete` frees the pool but
leaves `pool_level`, so the next `toi_fill_skb_pool` of a full pool adds nothing, and `put_skb`
puts an skb back without counting it. `netlink_prepare` pushes the helper on `uhd_list` on every
setup, while nothing takes it off: the second setup of the helper at the head makes it its own
`next`, and the lookup of any other protocol never ends (`netlink_setup_again_cycles`).
-/

namespace TuxOnIceFastboot.Netlink

/-- The two `struct user_helper_data` of TuxOnIce: `ui_helper_data` and `usm_helper_data`. -/
inductive Helper
  | userui
  | usm
  deriving DecidableEq, Repr

/-- The fields of `struct user_helper_data` the netlink code keeps: whether the socket `nl`
exists, the helper's `pid`, the pool (`pool_level`, `pool_limit` and the number of skbs on
`emerg_skbs`), `netlink_id` and the helper after this one on `uhd_list`. -/
structure UserHelperData where
  nl : Bool
  pid : Int
  poolLevel : Int
  poolLimit : Int
  emergSkbs : Nat
  netlinkId : Nat
  next : Option Helper
  deriving DecidableEq, Repr

namespace UserHelperData

/-- `toi_fill_skb_pool(uhd)`; `allocs` are the results of its `alloc_skb` calls in order, a
call past the end of the list failing. -/
def toiFillSkbPool : List Bool → UserHelperData → UserHelperData
  | allocs, uhd =>
    if uhd.poolLevel < uhd.poolLimit then
      match allocs with
      | true :: rest =>
        toiFillSkbPool rest
          { uhd with emergSkbs := uhd.emergSkbs + 1, poolLevel := uhd.poolLevel + 1 }
      | _ => uhd
    else uhd

/-- `toi_get_skb(uhd)`: whether it returns an skb, a new one when `alloc_skb` succeeds, else one
taken from the pool. -/
def toiGetSkb (allocOk : Bool) (uhd : UserHelperData) : Bool × UserHelperData :=
  if allocOk then (true, uhd)
  else if uhd.emergSkbs ≠ 0 then
    (true, { uhd with poolLevel := uhd.poolLevel - 1, emergSkbs := uhd.emergSkbs - 1 })
  else (false, uhd)

/-- `put_skb(uhd, skb)`: the skb goes back on the pool while `pool_level` is below the limit,
without raising `pool_level`, and is freed otherwise. -/
def putSkb (uhd : UserHelperData) : UserHelperData :=
  if uhd.poolLevel < uhd.poolLimit then { uhd with emergSkbs := uhd.emergSkbs + 1 } else uhd

/-- `toi_send_netlink_message(uhd, type, params, len)`: `putOk` is whether `NLMSG_PUT` finds
room for the message. A message put is handed to `netlink_unicast`, which takes the skb; one that
is not goes to `nlmsg_failure`, which gives the skb back. -/
def toiSendNetlinkMessage (allocOk putOk : Bool) (uhd : UserHelperData) : UserHelperData :=
  if uhd.pid = -1 then uhd
  else
    match toiGetSkb allocOk uhd with
    | (false, uhd) => uhd
    | (true, uhd) => if putOk then uhd else putSkb uhd

/-- `toi_netlink_close_complete(uhd)`: the socket released, every skb of `emerg_skbs` freed and
`pid` reset; `pool_level` is left as it was. -/
def toiNetlinkCloseComplete (uhd : UserHelperData) : UserHelperData :=
  { uhd with nl := false, emergSkbs := 0, pid := -1 }

/-- `nl_set_nofreeze(uhd, pid)` for a task that exists: the helper's `pid` recorded, and
`NETLINK_MSG_NOFREEZE_ACK` sent back. -/
def nlSetNofreeze (pid : Int) (allocOk putOk : Bool) (uhd : UserHelperData) : UserHelperData :=
  toiSendNetlinkMessage allocOk putOk { uhd with pid := pid }

/-- `toi_netlink_close(uhd)`: `NETLINK_MSG_CLEANUP` sent to the helper. -/
def toiNetlinkClose (allocOk putOk : Bool) (uhd : UserHelperData) : UserHelperData :=
  toiSendNetlinkMessage allocOk putOk uhd

end UserHelperData

open UserHelperData

/-- The helpers and `uhd_list`. -/
structure NetlinkState where
  helpers : Helper → UserHelperData
  uhdList : Option Helper

namespace NetlinkState

/-- The state with helper `h` changed by `f`. -/
def update (st : NetlinkState) (h : Helper) (f : UserHelperData → UserHelperData) :
    NetlinkState :=
  { st with helpers := Function.update st.helpers h (f (st.helpers h)) }

/-- `netlink_prepare(uhd)`: the helper pushed on `uhd_list`, then, if `netlink_kernel_create`
gives a socket, its pool filled; `-ENOMEM` without a socket. -/
def netlinkPrepare (h : Helper) (nlOk : Bool) (allocs : List Bool) (st : NetlinkState) :
    NetlinkState × Int :=
  let st := { st.update h (fun uhd => { uhd with next := st.uhdList }) with uhdList := some h }
  if nlOk then (st.update h fun uhd => toiFillSkbPool allocs { uhd with nl := true }, 0)
  else (st, -ENOMEM)

/-- What happens while `toi_netlink_setup` waits for the helper
(`wait_for_completion_timeout`): `some (pid, allocOk, putOk)` when the helper sends
`NETLINK_MSG_NOFREEZE_ME`, which `toi_user_rcv_skb` hands to `nl_set_nofreeze`; `none` when it
never makes contact. -/
def waitForProcess (h : Helper) (contact : Option (Int × Bool × Bool)) (st : NetlinkState) :
    NetlinkState :=
  match contact with
  | some (pid, allocOk, putOk) => st.update h (nlSetNofreeze pid allocOk putOk)
  | none => st

/-- `toi_netlink_setup(uhd)`: `launchOk` is whether `toi_launch_userspace_program` starts the
helper, and `contact` what it does while the setup waits for it. -/
def toiNetlinkSetup (h : Helper) (nlOk : Bool) (allocs : List Bool) (launchOk : Bool)
    (contact : Option (Int × Bool × Bool)) (st : NetlinkState) : NetlinkState × Int :=
  -- "In case userui didn't cleanup properly on us"
  let st := st.update h toiNetlinkCloseComplete
  match netlinkPrepare h nlOk allocs st with
  | (st, r) =>
    if r < 0 then (st, 1)
    else if !launchOk then (st.update h toiNetlinkCloseComplete, 1)
    else
      let st := waitForProcess h contact st
      -- "Failed to contact userspace process."
      if (st.helpers h).pid = -1 then (st.update h toiNetlinkCloseComplete, 1) else (st, 0)

/-- The loop of `toi_user_rcv_skb` that looks along `uhd_list` for the helper of a protocol:
`some (some h)` for the helper found, `some none` at the `NULL` that ends the list, and `none`
when `fuel` steps did not end the walk. -/
def lookupHelper (st : NetlinkState) (protocol : Nat) : Nat → Option Helper → Option (Option Helper)
  | 0, _ => none
  | _ + 1, none => some none
  | fuel + 1, some h =>
    if (st.helpers h).netlinkId = protocol then some (some h)
    else lookupHelper st protocol fuel (st.helpers h).next

end NetlinkState

/-! ### What each call keeps -/

/-- What a call leaves of a helper: its place on `uhd_list`, its `netlink_id` and its
`pool_limit`. -/
def Frame (uhd uhd' : UserHelperData) : Prop :=
  uhd'.next = uhd.next ∧ uhd'.netlinkId = uhd.netlinkId ∧ uhd'.poolLimit = uhd.poolLimit

section Frame

variable {uhd uhd' uhd'' : UserHelperData}

theorem Frame.refl (uhd : UserHelperData) : Frame uhd uhd := ⟨rfl, rfl, rfl⟩

theorem Frame.trans (h₁ : Frame uhd uhd') (h₂ : Frame uhd' uhd'') : Frame uhd uhd'' :=
  ⟨h₂.1.trans h₁.1, h₂.2.1.trans h₁.2.1, h₂.2.2.trans h₁.2.2⟩

theorem frame_toiFillSkbPool (allocs : List Bool) (uhd : UserHelperData) :
    Frame uhd (toiFillSkbPool allocs uhd) := by
  induction allocs generalizing uhd with
  | nil =>
    unfold toiFillSkbPool
    split_ifs <;> exact Frame.refl _
  | cons b rest ih =>
    unfold toiFillSkbPool
    split_ifs
    · cases b
      · exact Frame.refl _
      · exact (Frame.refl uhd).trans (ih _)
    · exact Frame.refl _

theorem frame_toiGetSkb (allocOk : Bool) (uhd : UserHelperData) :
    Frame uhd (toiGetSkb allocOk uhd).2 := by
  unfold toiGetSkb
  split_ifs <;> exact Frame.refl _

theorem frame_putSkb (uhd : UserHelperData) : Frame uhd (putSkb uhd) := by
  unfold putSkb
  split_ifs <;> exact Frame.refl _

theorem frame_toiSendNetlinkMessage (allocOk putOk : Bool) (uhd : UserHelperData) :
    Frame uhd (toiSendNetlinkMessage allocOk putOk uhd) := by
  unfold toiSendNetlinkMessage
  by_cases hpid : uhd.pid = -1
  · rw [if_pos hpid]
    exact Frame.refl _
  · rw [if_neg hpid]
    have hget := frame_toiGetSkb allocOk uhd
    rcases hg : toiGetSkb allocOk uhd with ⟨_ | _, u⟩ <;> rw [hg] at hget
    · exact hget
    · -- an skb: sent, or given back by `nlmsg_failure`
      dsimp only
      split
      · exact hget
      · exact hget.trans (frame_putSkb u)

theorem frame_toiNetlinkCloseComplete (uhd : UserHelperData) :
    Frame uhd (toiNetlinkCloseComplete uhd) := Frame.refl _

theorem frame_nlSetNofreeze (pid : Int) (allocOk putOk : Bool) (uhd : UserHelperData) :
    Frame uhd (nlSetNofreeze pid allocOk putOk uhd) :=
  frame_toiSendNetlinkMessage allocOk putOk { uhd with pid := pid }

end Frame

namespace NetlinkState

variable {st : NetlinkState} {h : Helper}

@[simp] theorem update_helpers_self (f : UserHelperData → UserHelperData) :
    (st.update h f).helpers h = f (st.helpers h) := by
  simp [update]

@[simp] theorem update_uhdList (f : UserHelperData → UserHelperData) :
    (st.update h f).uhdList = st.uhdList := rfl

theorem netlinkPrepare_links (nlOk : Bool) (allocs : List Bool) :
    (netlinkPrepare h nlOk allocs st).1.uhdList = some h ∧
      Frame { st.helpers h with next := st.uhdList } ((netlinkPrepare h nlOk allocs st).1.helpers h) := by
  have hpush : Frame { st.helpers h with next := st.uhdList }
      { { st.helpers h with next := st.uhdList } with nl := true } := ⟨rfl, rfl, rfl⟩
  unfold netlinkPrepare
  dsimp only
  split
  · refine ⟨rfl, ?_⟩
    simp only [update_helpers_self]
    exact hpush.trans (frame_toiFillSkbPool allocs _)
  · refine ⟨rfl, ?_⟩
    simp only [update_helpers_self]
    exact Frame.refl _

theorem waitForProcess_links (contact : Option (Int × Bool × Bool)) :
    (waitForProcess h contact st).uhdList = st.uhdList ∧
      Frame (st.helpers h) ((waitForProcess h contact st).helpers h) := by
  cases contact with
  | none => exact ⟨rfl, Frame.refl _⟩
  | some c =>
    obtain ⟨pid, allocOk, putOk⟩ := c
    refine ⟨rfl, ?_⟩
    simp only [waitForProcess, update_helpers_self]
    exact frame_nlSetNofreeze pid allocOk putOk _

theorem toiNetlinkSetup_links (nlOk : Bool) (allocs : List Bool) (launchOk : Bool)
    (contact : Option (Int × Bool × Bool)) :
    (toiNetlinkSetup h nlOk allocs launchOk contact st).1.uhdList = some h ∧
      Frame { st.helpers h with next := st.uhdList }
        ((toiNetlinkSetup h nlOk allocs launchOk contact st).1.helpers h) := by
  obtain ⟨hlist, hframe⟩ :=
    @netlinkPrepare_links (st.update h toiNetlinkCloseComplete) h nlOk allocs
  -- the helper after `toi_netlink_close_complete` and the push
  have hstart : Frame { st.helpers h with next := st.uhdList }
      { (st.update h toiNetlinkCloseComplete).helpers h with
        next := (st.update h toiNetlinkCloseComplete).uhdList } := by
    rw [update_helpers_self, update_uhdList]
    exact ⟨rfl, rfl, rfl⟩
  unfold toiNetlinkSetup
  dsimp only
  rcases hp : netlinkPrepare h nlOk allocs (st.update h toiNetlinkCloseComplete) with ⟨st₂, r⟩
  rw [hp] at hlist hframe
  have hframe₂ := hstart.trans hframe
  obtain ⟨hlist₃, hframe₃⟩ := @waitForProcess_links st₂ h contact
  dsimp only at hlist hframe₂ ⊢
  -- after the push, only whole-helper calls follow, each of which keeps the frame
  split_ifs
  · exact ⟨hlist, hframe₂⟩
  · refine ⟨hlist, ?_⟩
    rw [update_helpers_self]
    exact hframe₂.trans (frame_toiNetlinkCloseComplete _)
  · refine ⟨hlist₃.trans hlist, ?_⟩
    rw [update_helpers_self]
    exact (hframe₂.trans hframe₃).trans (frame_toiNetlinkCloseComplete _)
  · exact ⟨hlist₃.trans hlist, hframe₂.trans hframe₃⟩

theorem lookupHelper_self_loop (hself : (st.helpers h).next = some h) {protocol : Nat}
    (hne : (st.helpers h).netlinkId ≠ protocol) :
    ∀ fuel, lookupHelper st protocol fuel (some h) = none
  | 0 => rfl
  | fuel + 1 => by
    rw [lookupHelper, if_neg hne, hself]
    exact lookupHelper_self_loop hself hne fuel

end NetlinkState

/-! ### The pool -/

section Pool

/-- The pool of a helper whose `pool_level` is at its limit while `emerg_skbs` is empty, as
`toi_netlink_close_complete` leaves a full pool. -/
def PoolDrained (uhd : UserHelperData) : Prop :=
  uhd.emergSkbs = 0 ∧ uhd.poolLevel = uhd.poolLimit

variable {uhd : UserHelperData}

theorem PoolDrained.fill (hd : PoolDrained uhd) (allocs : List Bool) :
    PoolDrained (toiFillSkbPool allocs uhd) := by
  unfold toiFillSkbPool
  rw [if_neg (by rw [hd.2]; exact Int.lt_irrefl _)]
  exact hd

theorem PoolDrained.send (hd : PoolDrained uhd) (allocOk putOk : Bool) :
    PoolDrained (toiSendNetlinkMessage allocOk putOk uhd) := by
  obtain ⟨hempty, hlevel⟩ := hd
  -- there is no skb on the pool to take, and no room to put one back
  have hget : toiGetSkb allocOk uhd = (allocOk, uhd) := by
    unfold toiGetSkb
    cases allocOk <;> simp [hempty]
  have hput : putSkb uhd = uhd := by
    unfold putSkb
    rw [if_neg (by rw [hlevel]; exact Int.lt_irrefl _)]
  unfold toiSendNetlinkMessage
  by_cases hpid : uhd.pid = -1
  · rw [if_pos hpid]
    exact ⟨hempty, hlevel⟩
  · rw [if_neg hpid, hget]
    cases allocOk
    · exact ⟨hempty, hlevel⟩
    · dsimp only
      split
      · exact ⟨hempty, hlevel⟩
      · rw [hput]
        exact ⟨hempty, hlevel⟩

theorem PoolDrained.closeComplete (hlevel : uhd.poolLevel = uhd.poolLimit) :
    PoolDrained (toiNetlinkCloseComplete uhd) :=
  ⟨rfl, hlevel⟩

theorem PoolDrained.netlinkPrepare {st : NetlinkState} {h : Helper}
    (hd : PoolDrained (st.helpers h)) (nlOk : Bool) (allocs : List Bool) :
    PoolDrained ((NetlinkState.netlinkPrepare h nlOk allocs st).1.helpers h) := by
  have hpush : PoolDrained { { st.helpers h with next := st.uhdList } with nl := true } := hd
  unfold NetlinkState.netlinkPrepare
  dsimp only
  split
  · simp only [NetlinkState.update_helpers_self]
    exact hpush.fill allocs
  · simp only [NetlinkState.update_helpers_self]
    exact hd

theorem PoolDrained.waitForProcess {st : NetlinkState} {h : Helper}
    (hd : PoolDrained (st.helpers h)) (contact : Option (Int × Bool × Bool)) :
    PoolDrained ((NetlinkState.waitForProcess h contact st).helpers h) := by
  cases contact with
  | none => exact hd
  | some c =>
    obtain ⟨pid, allocOk, putOk⟩ := c
    simp only [NetlinkState.waitForProcess, NetlinkState.update_helpers_self]
    exact @PoolDrained.send { st.helpers h with pid := pid } hd allocOk putOk

theorem toiNetlinkSetup_drained {st : NetlinkState} {h : Helper}
    (hfull : (st.helpers h).poolLevel = (st.helpers h).poolLimit) (nlOk : Bool)
    (allocs : List Bool) (launchOk : Bool) (contact : Option (Int × Bool × Bool)) :
    PoolDrained ((NetlinkState.toiNetlinkSetup h nlOk allocs launchOk contact st).1.helpers h) := by
  have hd₁ : PoolDrained ((st.update h toiNetlinkCloseComplete).helpers h) := by
    rw [NetlinkState.update_helpers_self]
    exact PoolDrained.closeComplete hfull
  have hd₂ := hd₁.netlinkPrepare nlOk allocs
  unfold NetlinkState.toiNetlinkSetup
  dsimp only
  rcases hp : NetlinkState.netlinkPrepare h nlOk allocs (st.update h toiNetlinkCloseComplete)
    with ⟨st₂, r⟩
  rw [hp] at hd₂
  have hd₃ := hd₂.waitForProcess contact
  dsimp only at hd₂ ⊢
  -- every call after the push keeps the pool drained
  split_ifs
  · exact hd₂
  · rw [NetlinkState.update_helpers_self]
    exact PoolDrained.closeComplete hd₂.2
  · rw [NetlinkState.update_helpers_self]
    exact PoolDrained.closeComplete hd₃.2
  · exact hd₃

end Pool

/-! ### A second cycle -/

open NetlinkState

/-- `toi_netlink_setup` of the helper at the head of `uhd_list`, as on the next hibernation
cycle: the helper becomes its own `next`, so `uhd_list` is no longer a list that ends, and the
lookup of `toi_user_rcv_skb` for any protocol but the helper's never ends. A helper whose pool was
full has it empty with `pool_level` still at `pool_limit`, so `pool_level` no longer counts the
pool. -/
theorem netlink_setup_again_cycles (st : NetlinkState) (h : Helper) (hhead : st.uhdList = some h)
    (nlOk : Bool) (allocs : List Bool) (launchOk : Bool) (contact : Option (Int × Bool × Bool)) :
    ((toiNetlinkSetup h nlOk allocs launchOk contact st).1.uhdList = some h ∧
      ((toiNetlinkSetup h nlOk allocs launchOk contact st).1.helpers h).next = some h ∧
      ∀ protocol, protocol ≠ (st.helpers h).netlinkId → ∀ fuel,
        lookupHelper (toiNetlinkSetup h nlOk allocs launchOk contact st).1 protocol fuel
          (toiNetlinkSetup h nlOk allocs launchOk contact st).1.uhdList = none) ∧
    ((st.helpers h).poolLevel = (st.helpers h).poolLimit →
      ((toiNetlinkSetup h nlOk allocs launchOk contact st).1.helpers h).emergSkbs = 0 ∧
      ((toiNetlinkSetup h nlOk allocs launchOk contact st).1.helpers h).poolLevel =
        (st.helpers h).poolLimit) := by
  obtain ⟨hlist, hnext, hid, hlimit⟩ := @toiNetlinkSetup_links st h nlOk allocs
    launchOk contact
  rw [hhead] at hnext
  refine ⟨⟨hlist, hnext, fun protocol hne fuel => ?_⟩, fun hfull => ?_⟩
  · rw [hlist]
    exact lookupHelper_self_loop hnext (by rw [hid]; exact Ne.symm hne) fuel
  · obtain ⟨hempty, hlevel⟩ := toiNetlinkSetup_drained hfull nlOk allocs launchOk contact
    exact ⟨hempty, hlevel.trans hlimit⟩

/-- `ui_helper_data` and `usm_helper_data` as `toi_user_ui_init` and `toi_usm_init` leave them:
no socket, no `pid`, an empty pool of limit `6`, and the protocols `NETLINK_TOI_USERUI` (`20`) and
`NETLINK_TOI_USM` (`21`). -/
def bootHelpers : Helper → UserHelperData
  | .userui => ⟨false, -1, 0, 6, 0, 20, none⟩
  | .usm => ⟨false, -1, 0, 6, 0, 21, none⟩

/-- The first hibernation cycle: the user interface set up with every allocation succeeding,
in contact as pid `100`, then closed by its `NETLINK_MSG_CLEANUP`. -/
def firstCycle : NetlinkState :=
  ((toiNetlinkSetup .userui true (List.replicate 6 true) true (some (100, true, true))
    ⟨bootHelpers, none⟩).1).update .userui toiNetlinkCloseComplete

/-- On the next cycle the user interface is its own `next`, a message of the storage manager's
protocol `21` is looked for forever, and the pool is empty at level `6`. -/
theorem netlink_second_cycle_userui :
    firstCycle.uhdList = some .userui ∧
      (firstCycle.helpers .userui).poolLevel = (firstCycle.helpers .userui).poolLimit ∧
      (((toiNetlinkSetup .userui true (List.replicate 6 true) true (some (100, true, true))
          firstCycle).1.uhdList = some .userui ∧
        ((toiNetlinkSetup .userui true (List.replicate 6 true) true (some (100, true, true))
          firstCycle).1.helpers .userui).next = some .userui ∧
        ∀ protocol, protocol ≠ (firstCycle.helpers .userui).netlinkId → ∀ fuel,
          lookupHelper (toiNetlinkSetup .userui true (List.replicate 6 true) true
            (some (100, true, true)) firstCycle).1 protocol fuel
            (toiNetlinkSetup .userui true (List.replicate 6 true) true (some (100, true, true))
              firstCycle).1.uhdList = none) ∧
      ((firstCycle.helpers .userui).poolLevel = (firstCycle.helpers .userui).poolLimit →
        ((toiNetlinkSetup .userui true (List.replicate 6 true) true (some (100, true, true))
          firstCycle).1.helpers .userui).emergSkbs = 0 ∧
        ((toiNetlinkSetup .userui true (List.replicate 6 true) true (some (100, true, true))
          firstCycle).1.helpers .userui).poolLevel = (firstCycle.helpers .userui).poolLimit)) :=
  ⟨by decide +kernel, by decide +kernel, netlink_setup_again_cycles firstCycle .userui
    (by decide +kernel) true
    (List.replicate 6 true) true (some (100, true, true))⟩

end TuxOnIceFastboot.Netlink
