import TuxOnIceFastboot.Base
import TuxOnIceFastboot.Lib.MachineInt
import TuxOnIceFastboot.Lib.KeyedList

/-!
# The cluster nodes

Cluster hibernation has no master: every node broadcasts its state, keeps a list of the peers
it has heard with the last message of each, and moves to the next step when every peer it
does not ignore has answered, or a delay has passed. This module is that code: the messages,
the member list and its counters (`add_update_member`), the counts `time_to_continue` decides
by, and `toi_recv`, which every local node runs on every packet.
-/

namespace TuxOnIceFastboot.Cluster

open Lib

/-! ### Messages -/

/-- `enum cluster_message`: a message is a state bit, with `MSG_ACK` or `MSG_NACK` set in a
reply. -/
def msgAck : UInt16 := 1
def msgNack : UInt16 := 2
def msgAbort : UInt16 := 8
def msgBye : UInt16 := 16
def msgHibernate : UInt16 := 32
def msgImage : UInt16 := 64
def msgIo : UInt16 := 128
def msgRunning : UInt16 := 256

/-- `MSG_ACK_MASK`. -/
def msgAckMask : UInt16 := msgAck ||| msgNack

/-- `MSG_STATE_MASK`: `~MSG_ACK_MASK`. -/
def msgStateMask : UInt16 := ~~~msgAckMask

/-- A reply that makes its sender ignored: a `NACK` of a hibernate, image or I/O request. -/
def nacks (message : UInt16) : Bool :=
  (message &&& msgNack) != 0 && (message &&& (msgHibernate ||| msgImage ||| msgIo)) != 0

/-! ### The member list -/

/-- `struct cluster_member`. -/
structure ClusterMember where
  addr : Nat
  message : UInt16
  ignore : Bool
  deriving DecidableEq, Repr

/-- The fields of `struct node_info` the protocol reads: `member_list`, `peer_count`,
`ignored_peer_count` and `current_message`. -/
structure NodeInfo where
  memberList : List ClusterMember
  peerCount : Int
  ignoredPeerCount : Int
  currentMessage : UInt16
  deriving DecidableEq, Repr

/-- A node as `toi_cluster_init` leaves it, with no members and both counters zero, once
`kTOICluster` has set its `current_message`. -/
def NodeInfo.init (currentMessage : UInt16) : NodeInfo := ⟨[], 0, 0, currentMessage⟩

/-- `__find_member(index, addr)`. -/
def findMember (node : NodeInfo) (addr : Nat) : Option ClusterMember :=
  findKey ClusterMember.addr addr node.memberList

/-- `set_ignore(index, addr, this)`: the member, and whether `ignored_peer_count` grows. -/
def setIgnore (this : ClusterMember) : ClusterMember × Bool :=
  if this.ignore then (this, false) else ({ this with ignore := true }, true)

/-- What `__add_update_member` does to the member it found: a new message is recorded, and a
new `NACK` of a request makes the member ignored. -/
def updateMember (message : UInt16) (this : ClusterMember) : ClusterMember × Bool :=
  if this.message != message then
    let this := { this with message := message }
    if nacks message then setIgnore this else (this, false)
  else (this, false)

/-- `add_update_member(index, addr, message)`, which runs `__add_update_member` under the
lock: `1` for a new member, `0` for one updated, `-1` when `toi_kzalloc` (`allocOk`) fails. A
new member goes at the tail of the list. -/
def addUpdateMember (allocOk : Bool) (addr : Nat) (message : UInt16) (node : NodeInfo) :
    Int × NodeInfo :=
  match findMember node addr with
  | some this =>
    let r := updateMember message this
    (0, { node with
      memberList := updateKey ClusterMember.addr addr (fun m => (updateMember message m).1)
        node.memberList
      ignoredPeerCount := if r.2 then node.ignoredPeerCount + 1 else node.ignoredPeerCount })
  | none =>
    if !allocOk then (-1, node)
    else
      let this : ClusterMember := ⟨addr, message, false⟩
      let r := if nacks message then setIgnore this else (this, false)
      (1, { node with
        memberList := node.memberList ++ [r.1]
        peerCount := node.peerCount + 1
        ignoredPeerCount := if r.2 then node.ignoredPeerCount + 1 else node.ignoredPeerCount })

/-! ### Deciding to move on -/

/-- Whether a member is counted as not sending `message`: one not ignored whose message, whole
(`precise`) or its state bits, is another. -/
def notInMessage (message : UInt16) (precise : Bool) (this : ClusterMember) : Bool :=
  !this.ignore && (if precise then this.message else this.message &&& msgStateMask) != message

/-- `peers_not_in_message(index, message, precise)`. -/
def peersNotInMessage (node : NodeInfo) (message : UInt16) (precise : Bool) : Int :=
  node.memberList.countP (notInMessage message precise)

/-- `peers_in_message(index, message, precise)`. -/
def peersInMessage (node : NodeInfo) (message : UInt16) (precise : Bool) : Int :=
  node.peerCount - node.ignoredPeerCount - peersNotInMessage node message precise

/-- `time_after(a, b)`: `(long)(b - a) < 0` in `unsigned long` arithmetic. -/
def timeAfter (a : Arch) (x y : Nat) : Bool := toSigned a.longBits ((y : Int) - x) < 0

/-- `time_to_continue(index, start, message)` at time `jiffies`: every peer not ignored is in
`message`'s state and none still sends the bare request, or `continue_delay` has passed. -/
def timeToContinue (a : Arch) (continueDelay jiffies start : Nat) (node : NodeInfo)
    (message : UInt16) : Bool :=
  let first := peersNotInMessage node message false
  let second := peersInMessage node message true
  if first = 0 && second = 0 then true
  else timeAfter a jiffies (toUnsigned a.longBits (start + continueDelay))

/-! ### Receiving -/

/-- What `toi_recv` reads of a packet that passed its checks: the message and `SADDR`, an
`unsigned long`: the sender's `sid` in loopback mode and its IPv4 address otherwise. -/
structure ToiPkt where
  message : UInt16
  saddr : Nat
  deriving DecidableEq, Repr

/-- `SADDR` as the `__be32 addr` of `add_update_member`: its low 32 bits. -/
def ToiPkt.addr (pkt : ToiPkt) : Nat := toUnsigned 32 pkt.saddr

theorem ToiPkt.addr_of_lt {pkt : ToiPkt} (h : pkt.saddr < 2 ^ 32) : pkt.addr = pkt.saddr := by
  have := toUnsigned_of_lt (w := 32) (Int.natCast_nonneg pkt.saddr) (by exact_mod_cast h)
  exact_mod_cast this

/-- The `switch` of `toi_recv`: what node `index`, sending `oldMessage`, sends after a message.
Odd local nodes refuse to hibernate or resume. -/
def recvAnswer (index : Nat) (message oldMessage : UInt16) : UInt16 :=
  let state := message &&& msgStateMask
  let reply := if index % 2 = 1 then msgNack else msgAck
  if state = msgHibernate then msgHibernate ||| reply
  else if state = msgImage then msgImage ||| reply
  else if state = msgIo then msgIo ||| msgAck
  else oldMessage

/-- The body of `toi_recv`'s loop for local node `index`: the node after the packet, and the
message it sends (`toi_send_if(new_message, index)`), if any. A node that is the sender
(`index == SADDR`, on the whole `unsigned long`), or offline (`current_message` is `0`), skips
the packet; the member is keyed by the low 32 bits of `SADDR`. -/
def recvNode (allocOk : Bool) (pkt : ToiPkt) (index : Nat) (node : NodeInfo) :
    NodeInfo × Option UInt16 :=
  let oldMessage := node.currentMessage
  if index = pkt.saddr || oldMessage == 0 then (node, none)
  else
    let r := addUpdateMember allocOk pkt.addr pkt.message node
    if r.1 = -1 then (r.2, none)
    else
      let newMessage := recvAnswer index pkt.message oldMessage
      let ack := pkt.message &&& msgAckMask
      if oldMessage != newMessage then ({ r.2 with currentMessage := newMessage }, some newMessage)
      -- a bare request is answered again
      else if ack == 0 then (r.2, some newMessage)
      else (r.2, none)

/-- `toi_recv` on a packet that passed its checks: each local node below `numLocalNodes` in
turn, `allocOk index` telling whether its `toi_kzalloc` succeeds; the nodes after, and the
packets sent, as their message and the sending node. -/
def toiRecv (numLocalNodes : Nat) (allocOk : Nat → Bool) (pkt : ToiPkt) (nodes : List NodeInfo) :
    List NodeInfo × List ToiPkt :=
  (List.range numLocalNodes).foldl (fun acc index =>
    match acc.1[index]? with
    | none => acc
    | some node =>
      let r := recvNode (allocOk index) pkt index node
      (acc.1.set index r.1, acc.2 ++ r.2.toList.map fun m => ⟨m, index⟩)) (nodes, [])

end TuxOnIceFastboot.Cluster
